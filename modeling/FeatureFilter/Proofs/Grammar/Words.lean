import FeatureFilter.Grammar.Cql2
import FeatureFilter.Proofs.Grammar.Scanning

namespace FeatureFilter.Grammar

def isNameChar (c : Char) : Bool := c.isAlpha || c.isDigit || c == '_' || c == '.' || c == ':'

def leadingWord (cs : List Char) : List Char := cs.takeWhile isNameChar

def behindWord (cs : List Char) : List Char := cs.dropWhile isNameChar

/-- No character of a name stands at the front. -/
def EndsWord (cs : List Char) : Prop := ∀ c ∈ cs.head?, isNameChar c = false

def isNameStart (c : Char) : Bool := c.isAlpha || c == '_'

theorem isUpper_iff (c : Char) : c.isUpper = true ↔ 65 ≤ c.toNat ∧ c.toNat ≤ 90 :=
  decide_eq_true_iff.trans (and_congr UInt32.le_iff_toNat_le UInt32.le_iff_toNat_le)

theorem isLower_of_toNat {c : Char} (h : 97 ≤ c.toNat ∧ c.toNat ≤ 122) : c.isLower = true :=
  Bool.and_eq_true_iff.2 ⟨decide_eq_true (UInt32.le_iff_toNat_le.2 h.1),
    decide_eq_true (UInt32.le_iff_toNat_le.2 h.2)⟩

theorem toLower_of_not_isUpper {c : Char} (h : c.isUpper = false) : c.toLower = c :=
  dif_neg (of_decide_eq_false h)

theorem toNat_toLower_of_isUpper {c : Char} (h : c.isUpper = true) :
    c.toLower.toNat = c.toNat + 32 := by
  have hval : c.toLower.val = c.val + 32 := congrArg Char.val (dif_pos (of_decide_eq_true h))
  have hle : c.val.toNat ≤ 90 := ((isUpper_iff c).1 h).2
  have hlt : c.val.toNat + 32 < 4294967296 := by omega
  have hsum : (c.val + 32).toNat = c.val.toNat + 32 :=
    (UInt32.toNat_add c.val 32).trans (Nat.mod_eq_of_lt hlt)
  exact (congrArg UInt32.toNat hval).trans hsum

theorem toLower_toLower (c : Char) : c.toLower.toLower = c.toLower := by
  apply toLower_of_not_isUpper
  rw [Bool.eq_false_iff, Ne, isUpper_iff]
  cases h : c.isUpper with
  | false => rwa [toLower_of_not_isUpper h, ← isUpper_iff, ← Ne, ← Bool.eq_false_iff]
  | true =>
    have hnat := toNat_toLower_of_isUpper h
    have hc := (isUpper_iff c).1 h
    omega

namespace Pattern

theorem scanText_iff (f : Char → Char) :
    scanText (fun w c => w == f c) ws cs = some (taken, rest) ↔
      taken.map f = ws ∧ cs = taken ++ rest := by
  induction ws generalizing cs taken with
  | nil =>
    rw [scanText, List.map_eq_nil_iff]
    constructor
    · rintro ⟨⟩
      exact ⟨rfl, rfl⟩
    · rintro ⟨rfl, rfl⟩
      rfl
  | cons w ws ih =>
    cases cs with
    | nil =>
      refine iff_of_false nofun ?_
      rintro ⟨hmap, happ⟩
      cases (List.append_eq_nil_iff.1 happ.symm).1
      cases hmap
    | cons c cs =>
      rw [scanText]
      constructor
      · intro h
        split at h
        · rename_i hw
          obtain ⟨⟨more, rest'⟩, hm, he⟩ := Option.map_eq_some_iff.1 h
          cases he
          obtain ⟨rfl, rfl⟩ := ih.1 hm
          rw [beq_iff_eq] at hw
          exact ⟨congrArg (· :: _) hw.symm, rfl⟩
        · cases h
      · rintro ⟨hmap, happ⟩
        cases taken with
        | nil => cases hmap
        | cons t taken =>
          cases happ
          cases hmap
          have hmore : scanText (fun w c => w == f c) (taken.map f) (taken ++ rest) =
            some (taken, rest) := ih.2 ⟨rfl, rfl⟩
          exact (if_pos (beq_self_eq_true _)).trans (congrArg (Option.map _) hmore)

theorem scan_text_iff :
    (text ws).scan cs = some (taken, rest) ↔ taken = ws ∧ cs = taken ++ rest := by
  have h : (text ws).scan cs = some (taken, rest) ↔ taken.map id = ws ∧ cs = taken ++ rest :=
    scanText_iff id
  rwa [List.map_id] at h

theorem scan_pair_of_ne (a : Char) (h : c ≠ b) (cs : List Char) :
    (text [a, b]).scan (a :: c :: cs) = none := by
  cases hs : (text [a, b]).scan (a :: c :: cs) with
  | none => rfl
  | some m =>
    obtain ⟨taken, rest⟩ := m
    obtain ⟨rfl, heq⟩ := scan_text_iff.1 hs
    cases heq
    exact absurd rfl h

theorem scan_anyCase_iff :
    (anyCase ws).scan cs = some (taken, rest) ↔
      taken.map Char.toLower = ws ∧ cs = taken ++ rest := scanText_iff Char.toLower

theorem scan_optional_of_none {p : Pattern} (h : p.scan cs = none) :
    (optional p).scan cs = some ([], cs) := by
  simp only [scan, h]

theorem scan_optional_of_some {p : Pattern} (h : p.scan cs = some m) :
    (optional p).scan cs = some m := by
  simp only [scan, h]

theorem scan_choice_of_none {p : Pattern} (h : p.scan cs = none) (q : Pattern) :
    (choice p q).scan cs = q.scan cs := by
  simp only [scan, h]

theorem scan_choice_of_some {p : Pattern} (h : p.scan cs = some m) (q : Pattern) :
    (choice p q).scan cs = some m := by
  simp only [scan, h]

theorem cases_of_scan_optional {p : Pattern} (h : (optional p).scan cs = some (taken, rest)) :
    taken = [] ∨ p.scan cs = some (taken, rest) := by
  cases hs : p.scan cs with
  | none =>
    rw [scan_optional_of_none hs] at h
    cases h
    exact .inl rfl
  | some m =>
    rw [scan_optional_of_some hs] at h
    exact .inr h

theorem exists_of_scan_anyOf {ps : List Pattern} (h : (anyOf ps).scan cs = some m) :
    ∃ p ∈ ps, p.scan cs = some m := by
  fun_induction anyOf ps with
  | case1 => cases h
  | case2 p => exact ⟨p, List.mem_singleton_self p, h⟩
  | case3 p ps hps ih =>
    rw [scan] at h
    cases hp : p.scan cs with
    | none =>
      rw [hp] at h
      obtain ⟨q, hq, hs⟩ := ih h
      exact ⟨q, List.mem_cons_of_mem p hq, hs⟩
    | some m' =>
      rw [hp] at h
      exact ⟨p, List.mem_cons_self, hp.trans h⟩

structure Single (p : Pattern) (f : Char → Bool) : Prop where
  nil : p.scan [] = none
  cons : ∀ c cs, p.scan (c :: cs) = if f c then some ([c], cs) else none

namespace Single

theorem one (cls : CharClass) : Single (.one cls) cls.has := ⟨rfl, fun _ _ => rfl⟩

theorem text (w : Char) : Single (.text [w]) (w == ·) := ⟨rfl, fun _ _ => rfl⟩

theorem choice (hp : Single p f) (hq : Single q g) :
    Single (.choice p q) fun c => f c || g c := by
  refine ⟨?_, ?_⟩
  · simp only [scan, hp.nil, hq.nil]
  · intro c cs
    simp only [scan, hp.cons, hq.cons]
    cases f c <;> rfl

theorem congr (hp : Single p f) (h : ∀ c, f c = g c) : Single p g := by
  cases funext h
  exact hp

theorem scan_many (hp : Single p f) (cs : List Char) :
    (many p).scan cs = some (cs.takeWhile f, cs.dropWhile f) := by
  induction cs with
  | nil => exact scan_many_of_none hp.nil
  | cons c cs ih =>
    have hc := hp.cons c cs
    cases hf : f c with
    | true =>
      rw [hf, if_pos rfl] at hc
      rw [scan_many_of_some hc, ih, List.takeWhile_cons_of_pos hf, List.dropWhile_cons_of_pos hf]
      rfl
    | false =>
      have hf' : ¬f c = true := Bool.eq_false_iff.1 hf
      rw [if_neg hf'] at hc
      rw [scan_many_of_none hc, List.takeWhile_cons_of_neg hf', List.dropWhile_cons_of_neg hf']

theorem scan_dropWhile (hp : Single p f) (cs : List Char) : p.scan (cs.dropWhile f) = none := by
  induction cs with
  | nil => exact hp.nil
  | cons c cs ih =>
    cases hf : f c with
    | true =>
      rw [List.dropWhile_cons_of_pos hf]
      exact ih
    | false =>
      rw [List.dropWhile_cons_of_neg (Bool.eq_false_iff.1 hf), hp.cons, hf]
      rfl

theorem takeWhile_append (hp : Single p f) (h : taken.all f = true) (hr : p.scan rest = none) :
    (taken ++ rest).takeWhile f = taken ∧ (taken ++ rest).dropWhile f = rest := by
  have htaken : ∀ c ∈ taken, f c = true := List.all_eq_true.1 h
  have hrest : rest.takeWhile f = [] ∧ rest.dropWhile f = rest := by
    cases rest with
    | nil => exact ⟨rfl, rfl⟩
    | cons c cs =>
      rw [hp.cons] at hr
      cases hf : f c with
      | true =>
        rw [hf] at hr
        cases hr
      | false =>
        have hf' : ¬f c = true := Bool.eq_false_iff.1 hf
        exact ⟨List.takeWhile_cons_of_neg hf', List.dropWhile_cons_of_neg hf'⟩
  rw [List.takeWhile_append_of_pos htaken, List.dropWhile_append_of_pos htaken, hrest.1, hrest.2]
  exact ⟨List.append_nil _, rfl⟩

end Single

theorem single_identChar : Single identChar isNameChar :=
  ((Single.one .letter).choice ((Single.one .digit).choice ((Single.text '_').choice
    ((Single.text '.').choice (.text ':'))))).congr fun c => by
      simp only [CharClass.has, isNameChar, Bool.or_assoc, BEq.comm (a := c)]

theorem single_identStart : Single identStart isNameStart :=
  ((Single.one .letter).choice (.text '_')).congr fun c => by
    simp only [CharClass.has, isNameStart, BEq.comm (a := c)]

theorem scan_identChar_of_endsWord (h : EndsWord cs) : identChar.scan cs = none := by
  cases cs with
  | nil => exact single_identChar.nil
  | cons c cs =>
    rw [single_identChar.cons, h c rfl]
    rfl

theorem leadingWord_append (hall : ws.all isNameChar = true) (h : EndsWord rest) :
    leadingWord (ws ++ rest) = ws ∧ behindWord (ws ++ rest) = rest :=
  single_identChar.takeWhile_append hall (scan_identChar_of_endsWord h)

theorem isNameChar_of_isAlpha (h : c.isAlpha = true) : isNameChar c = true := by
  simp only [isNameChar, h, Bool.true_or]

theorem isNameChar_toLower (c : Char) : isNameChar c.toLower = isNameChar c := by
  cases h : c.isUpper with
  | false => rw [toLower_of_not_isUpper h]
  | true =>
    have hnat := toNat_toLower_of_isUpper h
    have hc := (isUpper_iff c).1 h
    have hupper : c.isAlpha = true := Bool.or_eq_true_iff.2 (.inl h)
    have hlower : c.toLower.isAlpha = true :=
      Bool.or_eq_true_iff.2 (.inr (isLower_of_toNat (by omega)))
    rw [isNameChar_of_isAlpha hupper, isNameChar_of_isAlpha hlower]

theorem scan_unless {p : Pattern} :
    («unless» p).scan cs = some m ↔ p.scan cs = none ∧ m = ([], cs) := by
  rw [scan]
  cases p.scan cs <;> grind

theorem lower_of_scan_keyword (h : (keyword w).scan cs = some (taken, rest)) :
    taken.map Char.toLower = w.toList := by
  obtain ⟨first, mid, more, hfirst, hmore, rfl⟩ := exists_of_scan_seq h
  cases (scan_unless.1 hmore).2
  rw [List.append_nil]
  exact (scan_anyCase_iff.1 hfirst).1

/-- A keyword is the leading word of a text, case apart. -/
theorem scan_keyword_iff (hw : w.toList.all isNameChar = true) :
    (keyword w).scan cs = some (taken, rest) ↔
      taken = leadingWord cs ∧ rest = behindWord cs ∧ taken.map Char.toLower = w.toList := by
  constructor
  · intro h
    obtain ⟨first, mid, more, hfirst, hmore, rfl⟩ := exists_of_scan_seq h
    obtain ⟨hlower, rfl⟩ := scan_anyCase_iff.1 hfirst
    obtain ⟨hnone, hm⟩ := scan_unless.1 hmore
    cases hm
    have hall : first.all isNameChar = true := by
      rw [← hlower, List.all_map] at hw
      simpa only [Function.comp_def, isNameChar_toLower] using hw
    obtain ⟨htake, hdrop⟩ := single_identChar.takeWhile_append hall hnone
    rw [List.append_nil]
    exact ⟨htake.symm, hdrop.symm, hlower⟩
  · rintro ⟨rfl, rfl, hlower⟩
    have hfirst : (anyCase w.toList).scan cs = some (leadingWord cs, behindWord cs) :=
      scan_anyCase_iff.2 ⟨hlower, List.takeWhile_append_dropWhile.symm⟩
    have hmore : («unless» identChar).scan (behindWord cs) = some ([], behindWord cs) :=
      scan_unless.2 ⟨single_identChar.scan_dropWhile cs, rfl⟩
    rw [keyword, scan_seq_of_some hfirst, hmore]
    simp only [Option.map_some, List.append_nil]

theorem scan_keyword_of_lower (hall : ws.all isNameChar = true) (h : EndsWord rest)
    (hlower : ws.map Char.toLower = w.toList) :
    (keyword w).scan (ws ++ rest) = some (ws, rest) := by
  obtain ⟨htake, hdrop⟩ := leadingWord_append hall h
  have hw : w.toList.all isNameChar = true := by
    rw [← hlower, List.all_map]
    simpa only [Function.comp_def, isNameChar_toLower] using hall
  exact (scan_keyword_iff hw).2 ⟨htake.symm, hdrop.symm, hlower⟩

theorem scan_keyword_of_ne (hw : w.toList.all isNameChar = true)
    (h : (leadingWord cs).map Char.toLower ≠ w.toList) : (keyword w).scan cs = none := by
  cases hs : (keyword w).scan cs with
  | none => rfl
  | some m =>
    obtain ⟨taken, rest⟩ := m
    obtain ⟨rfl, -, hlower⟩ := (scan_keyword_iff hw).1 hs
    exact absurd hlower h

theorem scan_anyOf_of_none {ps : List Pattern} (h : ∀ p ∈ ps, p.scan cs = none) :
    (anyOf ps).scan cs = none := by
  cases hs : (anyOf ps).scan cs with
  | none => rfl
  | some m =>
    obtain ⟨p, hp, hm⟩ := exists_of_scan_anyOf hs
    exact absurd ((h p hp).symm.trans hm) nofun

theorem scan_of_scan_anyOf_none {ps : List Pattern} (h : (anyOf ps).scan cs = none) :
    ∀ p ∈ ps, p.scan cs = none := by
  fun_induction anyOf ps with
  | case1 => exact fun _ hp => absurd hp List.not_mem_nil
  | case2 p => exact List.forall_mem_singleton.2 h
  | case3 p ps hps ih =>
    rw [scan] at h
    cases hp : p.scan cs with
    | none =>
      rw [hp] at h
      exact List.forall_mem_cons.2 ⟨hp, ih h⟩
    | some m =>
      rw [hp] at h
      cases h

theorem isNameChar_of_isNameStart (h : isNameStart c = true) : isNameChar c = true := by
  rcases Bool.or_eq_true_iff.1 h with h | h
  · exact isNameChar_of_isAlpha h
  · rw [eq_of_beq h]
    rfl

theorem scan_identifier (hc : isNameStart c = true) (hall : cs.all isNameChar = true)
    (hrest : EndsWord rest)
    (hfree : ∀ w ∈ reservedWords, (keyword w).scan (c :: cs ++ rest) = none) :
    identifier.scan (c :: cs ++ rest) = some (c :: cs, rest) := by
  have hwords : («unless» (anyOf (reservedWords.map keyword))).scan (c :: cs ++ rest) =
      some ([], c :: cs ++ rest) :=
    scan_unless.2 ⟨scan_anyOf_of_none (List.forall_mem_map.2 hfree), rfl⟩
  have hfirst : identStart.scan (c :: cs ++ rest) = some ([c], cs ++ rest) :=
    (single_identStart.cons c (cs ++ rest)).trans (if_pos hc)
  have hmore : (many identChar).scan (cs ++ rest) = some (cs, rest) := by
    obtain ⟨htake, hdrop⟩ := leadingWord_append hall hrest
    rw [single_identChar.scan_many]
    exact congrArg some (Prod.ext htake hdrop)
  rw [identifier, scan_seq_of_some hwords, scan_seq_of_some hfirst, hmore]
  rfl

/-- A reserved word is no name. -/
theorem scan_identifier_of_reserved (hk : k ∈ reservedWords) (h : (keyword k).scan cs = some m) :
    identifier.scan cs = none := by
  have hfree : («unless» (anyOf (reservedWords.map keyword))).scan cs = none := by
    cases hs : («unless» (anyOf (reservedWords.map keyword))).scan cs with
    | none => rfl
    | some m' =>
      have hnone := scan_of_scan_anyOf_none (scan_unless.1 hs).1 _ (List.mem_map_of_mem hk)
      rw [hnone] at h
      cases h
  exact scan_seq_of_none hfree

theorem scan_identifier_of_start (hc : isNameStart c = false) (cs : List Char) :
    identifier.scan (c :: cs) = none := by
  have hfirst : identStart.scan (c :: cs) = none := by
    rw [single_identStart.cons, hc]
    rfl
  cases hs : («unless» (anyOf (reservedWords.map keyword))).scan (c :: cs) with
  | none => exact scan_seq_of_none hs
  | some m =>
    cases (scan_unless.1 hs).2
    rw [identifier, scan_seq_of_some hs, scan_seq_of_none hfirst]
    rfl

end Pattern
end FeatureFilter.Grammar
