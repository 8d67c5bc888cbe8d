import Mathlib.Algebra.Group.Nat.Defs
import FeatureFilter.Time.Instant

namespace FeatureFilter.Time

theorem isDigit_padded (width n : Nat) : (padded width n).all Char.isDigit = true := by
  refine List.all_eq_true.2 fun c hc => ?_
  rcases List.mem_append.1 hc with hc | hc
  · cases (List.mem_replicate.1 hc).2
    rfl
  · exact Nat.isDigit_of_mem_toDigits (by decide) (by decide) hc

theorem digitsValue_padded (width n : Nat) : digitsValue (padded width n) = n := by
  refine (Nat.ofDigitChars_append 0).trans ?_
  rw [Nat.ofDigitChars_replicate_zero, Nat.mul_zero]
  exact Nat.ofDigitChars_toDigits (by decide) (by decide)

theorem length_padded (hw : 0 < width) (hn : n < 10 ^ width) : (padded width n).length = width := by
  have hlen := (Nat.length_toDigits_le_iff (by decide) hw).2 hn
  rw [padded, List.length_append, List.length_replicate]
  omega

theorem length_padded_pos (width n : Nat) : 0 < (padded width n).length := by
  have hlen : 0 < (Nat.toDigits 10 n).length := Nat.length_toDigits_pos
  rw [padded, List.length_append]
  omega

def EndsDigits (cs : List Char) : Prop := ∀ c ∈ cs.head?, c.isDigit = false

theorem EndsDigits.takeWhile_take (h : EndsDigits cs) (n : Nat) :
    (cs.take n).takeWhile Char.isDigit = [] := by
  cases cs with
  | nil => rw [List.take_nil]; rfl
  | cons c cs =>
    cases n with
    | zero => rfl
    | succ n =>
      rw [List.take_succ_cons, List.takeWhile_cons_of_neg]
      rw [h c rfl]
      exact Bool.false_ne_true

theorem readDigits_append (hall : ds.all Char.isDigit = true) (hleast : least ≤ ds.length)
    (hmost : ds.length ≤ most) (hend : ds.length = most ∨ EndsDigits rest) :
    readDigits least most (ds ++ rest) = some (ds, rest) := by
  have htake : (ds ++ rest).take most = ds ++ rest.take (most - ds.length) := by
    rw [List.take_append, List.take_of_length_le hmost]
  have hrest : (rest.take (most - ds.length)).takeWhile Char.isDigit = [] := by
    rcases hend with hend | hend
    · rw [hend, Nat.sub_self]
      rfl
    · exact hend.takeWhile_take _
  have hdigits : ((ds ++ rest).take most).takeWhile Char.isDigit = ds := by
    rw [htake, List.takeWhile_append_of_pos (List.all_eq_true.1 hall), hrest, List.append_nil]
  simp only [readDigits, hdigits, if_pos hleast, List.drop_left]

theorem readNumber_append (hall : ds.all Char.isDigit = true) (hleast : least ≤ ds.length)
    (hmost : ds.length ≤ most) (hend : ds.length = most ∨ EndsDigits rest) :
    readNumber least most (ds ++ rest) = some (digitsValue ds, rest) := by
  rw [readNumber, readDigits_append hall hleast hmost hend]
  rfl

theorem readNumber_of_endsDigits (hleast : 0 < least) (h : EndsDigits cs) :
    readNumber least most cs = none := by
  have hfew : ¬least ≤ ([] : List Char).length := Nat.not_le.2 hleast
  simp only [readNumber, readDigits, h.takeWhile_take, if_neg hfew, Option.map_none]

theorem readNumber_padded (hw : 0 < width) (hn : n < 10 ^ width) (hleast : least ≤ width)
    (rest : List Char) : readNumber least width (padded width n ++ rest) = some (n, rest) := by
  have hlen := length_padded hw hn
  rw [readNumber_append (isDigit_padded width n) (by omega) (by omega) (.inl hlen),
    digitsValue_padded]

theorem exists_padded (width n : Nat) : ∃ d ds, padded width n = d :: ds ∧ d.isDigit = true := by
  have hlen := length_padded_pos width n
  have hall := isDigit_padded width n
  cases hp : padded width n with
  | nil =>
    rw [hp] at hlen
    cases hlen
  | cons d ds =>
    rw [hp] at hall
    exact ⟨d, ds, rfl, (Bool.and_eq_true_iff.1 (List.all_cons.symm.trans hall)).1⟩

theorem toNat_of_isDigit {c : Char} (h : c.isDigit = true) : 48 ≤ c.toNat ∧ c.toNat ≤ 57 := by
  simpa [Char.isDigit, UInt32.le_iff_toNat_le] using h

theorem isSpace_of_isDigit (h : c.isDigit = true) : Text.isSpace c = false := by
  have hc := toNat_of_isDigit h
  simp only [Text.isSpace, Bool.or_eq_false_iff, Bool.and_eq_false_iff, beq_eq_false_iff_ne,
    decide_eq_false_iff_not]
  omega

theorem skipSpace_cons (hc : Text.isSpace c = false) (cs : List Char) :
    skipSpace (c :: cs) = c :: cs := by
  rw [skipSpace, List.dropWhile_cons_of_neg]
  rw [hc]
  exact Bool.false_ne_true

theorem skipSpace_padded (width n : Nat) (rest : List Char) :
    skipSpace (padded width n ++ rest) = padded width n ++ rest := by
  obtain ⟨d, ds, hp, hd⟩ := exists_padded width n
  rw [hp, List.cons_append, skipSpace_cons (isSpace_of_isDigit hd)]

theorem skipSpace_writeYear (year : Int) (rest : List Char) :
    skipSpace (writeYear year ++ rest) = writeYear year ++ rest := by
  rw [writeYear]
  split
  · exact skipSpace_padded 4 _ rest
  · split <;> rfl

theorem readNumber_signed (n : Nat) (rest : List Char) :
    readNumber 1 (padded 4 n ++ '-' :: rest).length (padded 4 n ++ '-' :: rest) =
      some (n, '-' :: rest) := by
  have hlen := length_padded_pos 4 n
  have hend : EndsDigits ('-' :: rest) := by
    rintro c ⟨⟩
    rfl
  have hmost : (padded 4 n).length ≤ (padded 4 n ++ '-' :: rest).length := by
    rw [List.length_append]
    omega
  rw [readNumber_append (isDigit_padded 4 n) hlen hmost (.inr hend), digitsValue_padded]

theorem readYear_writeYear (year : Int) (rest : List Char) :
    readYear (writeYear year ++ '-' :: rest) = some (year, '-' :: rest) := by
  rw [writeYear]
  split
  · rename_i hyear
    have hread : readNumber 1 4 (padded 4 year.natAbs ++ '-' :: rest) =
        some (year.natAbs, '-' :: rest) :=
      readNumber_padded (by decide) (by omega) (by decide) _
    have hvalue : (year.natAbs : Int) = year := by omega
    have hsign : ∀ c ∈ (padded 4 year.natAbs ++ '-' :: rest).head?, c.isDigit = true := by
      obtain ⟨d, ds, hp, hd⟩ := exists_padded 4 year.natAbs
      rw [hp]
      rintro c ⟨⟩
      exact hd
    unfold readYear
    split
    · rename_i he
      rw [he] at hsign
      cases hsign '-' rfl
    · rename_i he
      rw [he] at hsign
      cases hsign '+' rfl
    · simp only [hread, Option.map_some, hvalue]
  · split
    · have hyear : -(year.natAbs : Int) = year := by omega
      simp only [List.cons_append, readYear, readNumber_signed, Option.map_some, hyear]
    · have hyear : (year.natAbs : Int) = year := by omega
      simp only [List.cons_append, readYear, readNumber_signed, Option.map_some, hyear]

theorem Date.of?_eq_some (d : Date) : of? d.year d.month d.day = some d := dif_pos d.valid

theorem Date.day_lt (d : Date) : d.month < 10 ^ 2 ∧ d.day < 10 ^ 2 := by
  obtain ⟨-, ⟨-, hmonth⟩, -, hday⟩ := d.valid
  have hdays : daysIn d.year d.month ≤ 31 := by
    unfold daysIn
    repeat' split
    all_goals decide
  omega

theorem expect_cons (c : Char) (cs : List Char) : expect c (c :: cs) = some cs := if_pos rfl

theorem Date.readFront_write (d : Date) (gap : List Char → List Char)
    (hgap : ∀ cs, gap ('-' :: cs) = '-' :: cs) (rest : List Char) :
    readFront gap (d.write ++ rest) = some (d, rest) := by
  obtain ⟨hmonth, hday⟩ := d.day_lt
  have htwo {n : Nat} (hn : n < 10 ^ 2) (rest : List Char) :
      readNumber 1 2 (padded 2 n ++ rest) = some (n, rest) :=
    readNumber_padded (by decide) hn (by decide) rest
  simp only [readFront, write, List.append_assoc, List.cons_append, skipSpace_writeYear,
    readYear_writeYear, skipSpace_padded, hgap, expect_cons, htwo hmonth, htwo hday, of?_eq_some,
    Option.bind_eq_bind, Option.bind_some]

theorem Date.read?_write (d : Date) : read? d.write = some d := by
  have hfront := d.readFront_write id (fun _ => rfl) []
  rw [List.append_nil] at hfront
  rw [read?, hfront]
  rfl

theorem Date.ofString?_toString (d : Date) : ofString? (toString d) = some d := by
  have htext : (toString d).toList = d.write := String.toList_ofList
  rw [ofString?, htext, d.read?_write]

theorem Date.readLoose?_write (d : Date) : readLoose? d.write = some d := by
  have hfront := d.readFront_write skipSpace (skipSpace_cons rfl) []
  rw [List.append_nil] at hfront
  rw [readLoose?, hfront]
  rfl

theorem readFraction_padded (hw : 0 < width) (hwidth : width ≤ 9) (hn : n < 10 ^ width) :
    readFraction ('.' :: (padded width n ++ ['Z'])) = some (n * 10 ^ (9 - width), ['Z']) := by
  have hlen := length_padded hw hn
  have hend : EndsDigits ['Z'] := by
    rintro c ⟨⟩
    rfl
  have hmost : (padded width n).length ≤ (padded width n ++ ['Z']).length := by
    rw [List.length_append]
    omega
  have hread : readDigits 1 (padded width n ++ ['Z']).length (padded width n ++ ['Z']) =
      some (padded width n, ['Z']) :=
    readDigits_append (isDigit_padded width n) (by omega) hmost (.inr hend)
  have hkept : (padded width n).take 9 = padded width n := List.take_of_length_le (by omega)
  simp only [readFraction, hread, hkept, digitsValue_padded, hlen, Nat.pow_eq,
    Option.bind_eq_bind, Option.bind_some]

theorem readFraction_writeFraction (h : nanos < secondNanos) :
    readFraction (Instant.writeFraction nanos ++ ['Z']) = some (nanos, ['Z']) := by
  have hlimit : nanos < 1000000000 := h
  rw [Instant.writeFraction]
  split
  · subst nanos
    rfl
  · split
    · rename_i hmillis
      have hvalue : nanos / 1000000 * 10 ^ (9 - 3) = nanos := by omega
      rw [List.cons_append, readFraction_padded (by decide) (by decide) (by omega), hvalue]
    · split
      · rename_i hmicros
        have hvalue : nanos / 1000 * 10 ^ (9 - 6) = nanos := by omega
        rw [List.cons_append, readFraction_padded (by decide) (by decide) (by omega), hvalue]
      · rw [List.cons_append, readFraction_padded (by decide) (by decide) (by omega), Nat.sub_self,
          Nat.pow_zero, Nat.mul_one]

theorem Instant.of?_eq_some (t : Instant) : of? t.date t.second t.nanos = some t := by
  obtain ⟨hsecond, -, -⟩ := t.valid
  have hsecond : (t.second : Int) < daySeconds := Int.ofNat_lt.2 hsecond
  have hwithin : ((t.second : Int) % daySeconds).toNat = t.second := by
    rw [Int.emod_eq_of_lt (Int.natCast_nonneg _) hsecond, Int.toNat_natCast]
  have hnonneg : ¬(t.second : Int) < 0 := Int.not_lt.2 (Int.natCast_nonneg _)
  simp only [of?, hwithin, dif_pos t.valid, if_neg hnonneg, if_pos hsecond, Option.bind_eq_bind,
    Option.bind_some]

theorem Instant.ofParts?_eq_some (t : Instant) (hshown : shown ≤ 60)
    (hsum : t.second % 60 = min shown 59)
    (hnanos : (if shown = 60 then fraction + secondNanos else fraction) = t.nanos) :
    ofParts? t.date (t.second / 3600) (t.second / 60 % 60) shown fraction 0 = some t := by
  have hday : t.second < 86400 := t.valid.1
  have htotal : (3600 * (t.second / 3600 : Nat) + 60 * (t.second / 60 % 60 : Nat) +
      (min shown 59 : Nat) - 0 : Int) = t.second := by omega
  rw [ofParts?, if_pos (by omega), hnanos, htotal, of?_eq_some]

/-- The second that an instant is written with: a leap second is the one behind its second. -/
def Instant.shownSecond (t : Instant) : Nat :=
  t.second % 60 + if secondNanos ≤ t.nanos then 1 else 0

theorem Instant.ofParts?_shownSecond (t : Instant) :
    t.shownSecond ≤ 60 ∧ ofParts? t.date (t.second / 3600) (t.second / 60 % 60) t.shownSecond
      (t.nanos % secondNanos) 0 = some t := by
  obtain ⟨-, hnanos, hleap⟩ := t.valid
  rw [shownSecond]
  by_cases hl : secondNanos ≤ t.nanos
  · have hlast : t.second % 60 = 59 := hleap.resolve_left (Nat.not_lt.2 hl)
    have hfraction : t.nanos % secondNanos + secondNanos = t.nanos := by
      rw [Nat.mod_eq_sub_mod hl, Nat.mod_eq_of_lt (by omega)]
      omega
    rw [if_pos hl, hlast]
    exact ⟨Nat.le_refl 60, t.ofParts?_eq_some (Nat.le_refl 60) hlast hfraction⟩
  · have hfraction : t.nanos % secondNanos = t.nanos := Nat.mod_eq_of_lt (Nat.lt_of_not_le hl)
    have hlt : t.second % 60 < 60 := Nat.mod_lt _ (by decide)
    rw [if_neg hl, Nat.add_zero, hfraction]
    refine ⟨Nat.le_of_lt hlt, t.ofParts?_eq_some (Nat.le_of_lt hlt) (by omega) ?_⟩
    exact if_neg (Nat.ne_of_lt hlt)

theorem Instant.write_eq (t : Instant) :
    t.write = t.date.write ++ 'T' :: (padded 2 (t.second / 3600) ++ ':' ::
      (padded 2 (t.second / 60 % 60) ++ ':' :: (padded 2 t.shownSecond ++
        (writeFraction (t.nanos % secondNanos) ++ ['Z'])))) := by
  simp only [write, shownSecond, List.append_assoc, List.cons_append]

theorem expectMark_cons (cs : List Char) : expectMark ('T' :: cs) = some cs := by
  rw [expectMark, expect_cons, Option.some_or]

theorem Instant.read?_write (t : Instant) (h : 0 ≤ t.date.year ∧ t.date.year ≤ 9999) :
    read? t.write = some t := by
  have hyear (rest : List Char) :
      readNumber 4 4 (writeYear t.date.year ++ rest) = some (t.date.year.natAbs, rest) := by
    rw [writeYear, if_pos h]
    exact readNumber_padded (by decide) (by omega) (by decide) rest
  have htwo {n : Nat} (hn : n < 10 ^ 2) (rest : List Char) :
      readNumber 2 2 (padded 2 n ++ rest) = some (n, rest) :=
    readNumber_padded (by decide) hn (by decide) rest
  have hdate : Date.of? t.date.year.natAbs t.date.month t.date.day = some t.date := by
    rw [Int.natAbs_of_nonneg h.1, Date.of?_eq_some]
  obtain ⟨hmonth, hday⟩ := t.date.day_lt
  obtain ⟨hshown, hparts⟩ := t.ofParts?_shownSecond
  have hsecond : t.second < 86400 := t.valid.1
  rw [t.write_eq, Date.write, read?]
  simp only [List.append_assoc, List.cons_append]
  refine Option.bind_eq_some_iff.2 ⟨_, hyear _, ?_⟩
  refine Option.bind_eq_some_iff.2 ⟨_, expect_cons _ _, ?_⟩
  refine Option.bind_eq_some_iff.2 ⟨_, htwo hmonth _, ?_⟩
  refine Option.bind_eq_some_iff.2 ⟨_, expect_cons _ _, ?_⟩
  refine Option.bind_eq_some_iff.2 ⟨_, htwo hday _, ?_⟩
  refine Option.bind_eq_some_iff.2 ⟨_, hdate, ?_⟩
  refine Option.bind_eq_some_iff.2 ⟨_, expectMark_cons _, ?_⟩
  refine Option.bind_eq_some_iff.2 ⟨_, htwo (by omega) _, ?_⟩
  refine Option.bind_eq_some_iff.2 ⟨_, expect_cons _ _, ?_⟩
  refine Option.bind_eq_some_iff.2 ⟨_, htwo (by omega) _, ?_⟩
  refine Option.bind_eq_some_iff.2 ⟨_, expect_cons _ _, ?_⟩
  refine Option.bind_eq_some_iff.2 ⟨_, htwo (by omega) _, ?_⟩
  refine Option.bind_eq_some_iff.2 ⟨_, readFraction_writeFraction (Nat.mod_lt _ (by decide)), ?_⟩
  exact Option.bind_eq_some_iff.2 ⟨(0, []), rfl, (if_pos rfl).trans hparts⟩

/-- A year outside those of four digits has a sign, and no number starts with one. -/
theorem Instant.read?_write_eq_none (t : Instant)
    (h : ¬(0 ≤ t.date.year ∧ t.date.year ≤ 9999)) : read? t.write = none := by
  have hsign : EndsDigits t.write := by
    rw [t.write_eq, Date.write, writeYear, if_neg h]
    rintro c ⟨⟩
    split <;> rfl
  rw [read?, readNumber_of_endsDigits (by decide) hsign]
  rfl

theorem Instant.ofString?_toString (t : Instant) :
    ofString? (toString t) =
      if 0 ≤ t.date.year ∧ t.date.year ≤ 9999 then some t else none := by
  have htext : (toString t).toList = t.write := String.toList_ofList
  rw [ofString?, htext]
  split
  · rename_i h
    exact t.read?_write h
  · rename_i h
    exact t.read?_write_eq_none h

theorem Instant.readLoose?_write (t : Instant) : readLoose? t.write = some t := by
  have htwo {n : Nat} (hn : n < 10 ^ 2) (rest : List Char) :
      readNumber 1 2 (skipSpace (padded 2 n ++ rest)) = some (n, rest) := by
    rw [skipSpace_padded]
    exact readNumber_padded (by decide) hn (by decide) rest
  have hcolon (rest : List Char) : expect ':' (skipSpace (':' :: rest)) = some rest := by
    rw [skipSpace_cons rfl, expect_cons]
  obtain ⟨hshown, hparts⟩ := t.ofParts?_shownSecond
  have hsecond : t.second < 86400 := t.valid.1
  rw [t.write_eq, readLoose?]
  refine Option.bind_eq_some_iff.2 ⟨_, t.date.readFront_write skipSpace (skipSpace_cons rfl) _, ?_⟩
  refine Option.bind_eq_some_iff.2 ⟨_, expectMark_cons _, ?_⟩
  refine Option.bind_eq_some_iff.2 ⟨_, htwo (by omega) _, ?_⟩
  refine Option.bind_eq_some_iff.2 ⟨_, hcolon _, ?_⟩
  refine Option.bind_eq_some_iff.2 ⟨_, htwo (by omega) _, ?_⟩
  refine Option.bind_eq_some_iff.2 ⟨_, hcolon _, ?_⟩
  refine Option.bind_eq_some_iff.2 ⟨_, htwo (by omega) _, ?_⟩
  refine Option.bind_eq_some_iff.2 ⟨_, readFraction_writeFraction (Nat.mod_lt _ (by decide)), ?_⟩
  exact Option.bind_eq_some_iff.2 ⟨(0, []), rfl, (if_pos rfl).trans hparts⟩

end FeatureFilter.Time
