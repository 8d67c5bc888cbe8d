import FeatureFilter.Json.Reader

namespace FeatureFilter.Json

theorem hexValue?_hexDigit : ∀ n < 16, hexValue? (hexDigit n) = some n := by decide

theorem hexEscape_hexDigits (ha : a < 16) (hb : b < 16) (rest : List Char) :
    hexEscape ('0' :: '0' :: hexDigit a :: hexDigit b :: rest) = .ok (a * 16 + b, rest) := by
  have h0 : hexValue? '0' = some 0 := rfl
  simp only [hexEscape, h0, hexValue?_hexDigit a ha, hexValue?_hexDigit b hb, Nat.zero_mul,
    Nat.zero_add]

theorem unicodeEscape_control (h : c.toNat < 32) (rest : List Char) :
    unicodeEscape ('0' :: '0' :: hexDigit (c.toNat / 16) :: hexDigit (c.toNat % 16) :: rest) =
      .ok (c, rest) := by
  have hex := hexEscape_hexDigits (a := c.toNat / 16) (b := c.toNat % 16) (by omega) (by omega) rest
  rw [Nat.div_add_mod'] at hex
  have hlow : isLowSurrogate c.toNat = false := by
    simp only [isLowSurrogate, Bool.and_eq_false_iff, decide_eq_false_iff_not]
    omega
  have hhigh : isHighSurrogate c.toNat = false := by
    simp only [isHighSurrogate, Bool.and_eq_false_iff, decide_eq_false_iff_not]
    omega
  simp only [unicodeEscape, hex, bind, Except.bind, hlow, hhigh, Bool.false_eq_true, if_false,
    Char.ofNat_toNat]

theorem stringChars_escape (c : Char) (fuel : Nat) (rest : List Char) :
    stringChars (fuel + 1) (escape c ++ rest) =
      stringChars fuel rest >>= fun (more, rest) => .ok (c :: more, rest) := by
  have hchar {n : Nat} (h : c.toNat = n) : c = Char.ofNat n := by rw [← h, Char.ofNat_toNat]
  unfold escape
  split
  · rename_i h
    subst h
    rfl
  split
  · rename_i h
    subst h
    rfl
  split
  · rename_i h
    subst h
    rfl
  split
  · rename_i h
    subst h
    rfl
  split
  · rename_i h
    subst h
    rfl
  split
  · rename_i h
    rw [hchar h]
    rfl
  split
  · rename_i h
    rw [hchar h]
    rfl
  split
  · rename_i h
    have hu : escaped ('u' :: '0' :: '0' :: hexDigit (c.toNat / 16) :: hexDigit (c.toNat % 16) ::
        rest) = .ok (c, rest) := unicodeEscape_control h rest
    simp only [List.cons_append, List.nil_append, stringChars, hu, bind, Except.bind]
  · rename_i hquote hslash _ _ _ _ _ hcontrol
    simp only [List.cons_append, List.nil_append]
    rw [stringChars]
    · rw [if_neg hcontrol]
    · exact hquote
    · exact hslash

theorem stringChars_escaped (cs rest : List Char) (h : (cs.flatMap escape).length < fuel) :
    stringChars fuel (cs.flatMap escape ++ '"' :: rest) = .ok (cs, rest) := by
  induction cs generalizing fuel with
  | nil =>
    cases fuel with
    | zero => exact absurd h (Nat.not_lt_zero _)
    | succ fuel => rfl
  | cons c cs ih =>
    have hpos : 0 < (escape c).length := by
      unfold escape
      repeat' split
      all_goals exact Nat.zero_lt_succ _
    rw [List.flatMap_cons, List.length_append] at h
    cases fuel with
    | zero => exact absurd h (Nat.not_lt_zero _)
    | succ fuel =>
      rw [List.flatMap_cons, List.append_assoc, stringChars_escape, ih (by omega)]
      rfl

/-- A string is read back from what stands behind its opening quote. -/
theorem stringTail_escaped (s : String) (rest : List Char) :
    stringTail (s.toList.flatMap escape ++ '"' :: rest) = .ok (s, rest) := by
  have hlen : (s.toList.flatMap escape).length <
      (s.toList.flatMap escape ++ '"' :: rest).length + 1 := by
    rw [List.length_append]
    omega
  simp only [stringTail, stringChars_escaped _ _ hlen, bind, Except.bind, String.ofList_toList]

theorem quoted_append (s : String) (rest : List Char) :
    quoted s ++ rest = '"' :: (s.toList.flatMap escape ++ '"' :: rest) := by
  simp only [quoted, List.cons_append, List.append_assoc, List.nil_append]

theorem value_quoted (depth : Nat) (s : String) (rest : List Char) :
    value depth (quoted s ++ rest) = .ok (.string s, rest) := by
  have hskip : skipBlanks (quoted s ++ rest) = quoted s ++ rest := by
    rw [quoted_append]
    rfl
  rw [value.eq_def]
  simp only [hskip]
  simp only [quoted_append, stringTail_escaped, bind, Except.bind]

theorem parse_compact_member (key s : String) :
    parse (object [(key, string s)]).compact = .ok (object [(key, string s)]) := by
  have htext : (object [(key, string s)]).compactChars =
      '{' :: (quoted key ++ ':' :: (quoted s ++ ['}'])) := by
    simp only [compactChars, compactMembers, scalar, List.cons_append, List.append_assoc]
  have hvalue : value depthLimit ('{' :: (quoted key ++ ':' :: (quoted s ++ ['}']))) =
      .ok (object [(key, string s)], []) := by
    have hmembers (fuel : Nat) : members (value 126) Entries.insert (fuel + 2) true []
        (quoted key ++ ':' :: (quoted s ++ ['}'])) = .ok ([(key, string s)], []) := by
      have hkey : nextKey true (quoted key ++ ':' :: (quoted s ++ ['}'])) =
          .ok (true, quoted key ++ ':' :: (quoted s ++ ['}'])) := by
        rw [quoted_append]
        rfl
      have hname : stringTail (quoted key ++ ':' :: (quoted s ++ ['}'])).tail =
          .ok (key, ':' :: (quoted s ++ ['}'])) := by
        rw [quoted_append]
        exact stringTail_escaped _ _
      have hcolon : colon (':' :: (quoted s ++ ['}'])) = .ok (quoted s ++ ['}']) := rfl
      have hend : members (value 126) Entries.insert (fuel + 1) false [(key, string s)] ['}'] =
          .ok ([(key, string s)], []) := rfl
      rw [members, hkey]
      simp only [bind, Except.bind, if_true, hname, hcolon, value_quoted]
      exact hend
    have hfuel : (quoted key ++ ':' :: (quoted s ++ ['}'])).length + 1 =
        (quoted key ++ (quoted s ++ ['}'])).length + 2 := by
      simp only [List.length_append, List.length_cons]
      omega
    have hskip (cs : List Char) : skipBlanks ('{' :: cs) = '{' :: cs := rfl
    rw [value.eq_def]
    simp only [hskip, depthLimit, hfuel, hmembers, bind, Except.bind]
  simp only [parse, readWhole, compact, String.toList_ofList, htext, hvalue]
  rfl

end FeatureFilter.Json
