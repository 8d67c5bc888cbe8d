import FeatureFilter.Proofs.Grammar.Words
import FeatureFilter.Text.Quoted

namespace FeatureFilter

open Grammar

namespace Text

theorem undouble_double (q : Char) (cs : List Char) : undouble q (double q cs) = cs := by
  induction cs with
  | nil => rfl
  | cons c cs ih =>
    by_cases hc : c = q
    · rw [double, if_pos hc, undouble, if_pos ⟨rfl, rfl⟩, ih, hc]
    · rw [double, if_neg hc]
      cases hd : double q cs with
      | nil =>
        rw [hd] at ih
        rw [undouble, ← ih]
        rfl
      | cons d ds =>
        rw [hd] at ih
        rw [undouble, if_neg fun h => hc h.1, ih]

theorem between_quotes (q : Char) (cs : List Char) : between (q :: cs ++ [q]) = cs := by
  rw [between, List.cons_append, List.tail_cons, List.dropLast_concat]

theorem unquote_quote (q : Char) (cs : List Char) : unquote q (quote q cs) = cs := by
  rw [unquote, quote, between_quotes, undouble_double]

end Text

namespace Grammar.Pattern

theorem single_except (q : Char) : Single (.seq (.unless (.text [q])) (.one .any)) (q != ·) := by
  refine ⟨rfl, ?_⟩
  intro c cs
  rw [scan, scan, (Single.text q).cons]
  cases hc : q == c with
  | true => rw [bne, hc]; rfl
  | false => rw [bne, hc]; rfl

/-- A character inside a string: a quote written twice, or any other. -/
def stringChar : Pattern := .choice (.text ['\'', '\'']) (.seq (.unless (.text ['\''])) (.one .any))

theorem scan_quotes_of_ne (hc : c ≠ '\'') (cs : List Char) :
    (text ['\'', '\'']).scan (c :: cs) = none :=
  if_neg fun he => hc (eq_of_beq he).symm

theorem scan_doubled (s : List Char) (h : rest.head? ≠ some '\'') :
    (many stringChar).scan (Text.double '\'' s ++ '\'' :: rest) =
      some (Text.double '\'' s, '\'' :: rest) := by
  induction s with
  | nil =>
    have hlast : (text ['\'', '\'']).scan ('\'' :: rest) = none := by
      cases rest with
      | nil => rfl
      | cons c cs =>
        have hc : c ≠ '\'' := fun he => h (congrArg some he)
        have hc : (text ['\'']).scan (c :: cs) = none := if_neg fun he => hc (eq_of_beq he).symm
        exact congrArg (Option.map _) hc
    apply scan_many_of_none
    exact (scan_choice_of_none hlast _).trans ((single_except '\'').cons '\'' rest)
  | cons c s ih =>
    by_cases hc : c = '\''
    · subst hc
      have hfirst : stringChar.scan ('\'' :: '\'' :: (Text.double '\'' s ++ '\'' :: rest)) =
          some (['\'', '\''], Text.double '\'' s ++ '\'' :: rest) := scan_choice_of_some rfl _
      rw [Text.double, if_pos rfl, List.cons_append, List.cons_append, scan_many_of_some hfirst, ih]
      rfl
    · have hother : ('\'' != c) = true := bne_iff_ne.2 fun he => hc he.symm
      have hfirst : stringChar.scan (c :: (Text.double '\'' s ++ '\'' :: rest)) =
          some ([c], Text.double '\'' s ++ '\'' :: rest) := by
        rw [stringChar, scan_choice_of_none (scan_quotes_of_ne hc _), (single_except '\'').cons,
          if_pos hother]
      rw [Text.double, if_neg hc, List.cons_append, scan_many_of_some hfirst, ih]
      rfl

theorem scan_string (s : List Char) (h : rest.head? ≠ some '\'') :
    string.scan (Text.quote '\'' s ++ rest) = some (Text.quote '\'' s, rest) := by
  have hopen : (text ['\'']).scan (Text.quote '\'' s ++ rest) =
      some (['\''], Text.double '\'' s ++ '\'' :: rest) := by
    rw [Text.quote, List.cons_append, List.cons_append, List.append_assoc]
    rfl
  have hinside : (seq (many stringChar) (text ['\''])).scan (Text.double '\'' s ++ '\'' :: rest) =
      some (Text.double '\'' s ++ ['\''], rest) := by
    rw [scan_seq_of_some (scan_doubled s h)]
    rfl
  exact (scan_seq_of_some hopen).trans (congrArg (Option.map _) hinside)

theorem exists_of_scan_stringChar (h : stringChar.scan cs = some (taken, rest)) :
    ∃ c, ∀ more, taken ++ Text.double '\'' more = Text.double '\'' (c :: more) := by
  cases hq : (text ['\'', '\'']).scan cs with
  | some m =>
    rw [stringChar, scan_choice_of_some hq] at h
    cases (scan_text_iff.1 (hq.trans h)).1
    exact ⟨'\'', fun more => (if_pos rfl).symm⟩
  | none =>
    rw [stringChar, scan_choice_of_none hq] at h
    cases cs with
    | nil => cases h
    | cons c cs =>
      rw [(single_except '\'').cons] at h
      cases hc : '\'' != c with
      | false =>
        rw [hc] at h
        cases h
      | true =>
        rw [hc] at h
        cases h
        exact ⟨c, fun more => (if_neg (Ne.symm (bne_iff_ne.1 hc))).symm⟩

/-- What stands inside a string has every quote written twice. -/
theorem exists_double_of_scanMany (n : Nat) (cs : List Char) :
    ∃ body, (scanMany stringChar.scan n cs).1 = Text.double '\'' body := by
  induction n generalizing cs with
  | zero => exact ⟨[], rfl⟩
  | succ n ih =>
    rw [scanMany]
    cases hs : stringChar.scan cs with
    | none => exact ⟨[], rfl⟩
    | some m =>
      obtain ⟨c, hc⟩ := exists_of_scan_stringChar hs
      obtain ⟨body, hbody⟩ := ih m.2
      refine ⟨c :: body, ?_⟩
      rw [← hc body, ← hbody]

theorem exists_quote_of_scan_string (h : string.scan cs = some (lexeme, rest)) :
    ∃ body, lexeme = Text.quote '\'' body := by
  obtain ⟨first, mid, more, hfirst, hmore, rfl⟩ := exists_of_scan_seq h
  obtain ⟨inside, mid', last, hinside, hlast, rfl⟩ := exists_of_scan_seq hmore
  cases (scan_text_iff.1 hfirst).1
  cases (scan_text_iff.1 hlast).1
  obtain ⟨body, hbody⟩ := exists_double_of_scanMany mid.length mid
  have htaken : inside = Text.double '\'' body := by
    rw [← hbody]
    exact (congrArg Prod.fst (Option.some.inj hinside)).symm
  refine ⟨body, ?_⟩
  rw [htaken]
  rfl

theorem scan_quotedIdentifier (hne : name ≠ []) (hname : '"' ∉ name) (rest : List Char) :
    quotedIdentifier.scan ('"' :: name ++ ['"'] ++ rest) = some ('"' :: name ++ ['"'], rest) := by
  have hall : name.all ('"' != ·) = true := by
    refine List.all_eq_true.2 fun c hc => bne_iff_ne.2 ?_
    rintro rfl
    exact hname hc
  cases name with
  | nil => exact absurd rfl hne
  | cons c cs =>
    obtain ⟨hc, hall⟩ := Bool.and_eq_true_iff.1 (List.all_cons.symm.trans hall)
    have hfirst := (single_except '"').cons c (cs ++ '"' :: rest)
    rw [if_pos hc] at hfirst
    have hmore := (single_except '"').scan_many (cs ++ '"' :: rest)
    obtain ⟨htake, hdrop⟩ := (single_except '"').takeWhile_append hall
      ((single_except '"').cons '"' rest)
    rw [htake, hdrop] at hmore
    have hname : (atLeastOne (.seq (.unless (.text ['"'])) (.one .any))).scan
        (c :: (cs ++ '"' :: rest)) = some (c :: cs, '"' :: rest) := by
      rw [atLeastOne, scan_seq_of_some hfirst, hmore]
      rfl
    have hinside := scan_seq_of_some (b := text ['"']) hname
    have hopen : (text ['"']).scan ('"' :: (c :: cs) ++ ['"'] ++ rest) =
        some (['"'], c :: (cs ++ '"' :: rest)) := by
      rw [List.append_assoc]
      rfl
    exact (scan_seq_of_some hopen).trans (congrArg (Option.map _) hinside)

end Grammar.Pattern
end FeatureFilter
