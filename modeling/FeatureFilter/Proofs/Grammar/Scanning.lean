import FeatureFilter.Grammar.Pattern

namespace FeatureFilter.Grammar.Pattern

attribute [local simp] scanText scanMany scan

theorem append_of_scanText {same : Char → Char → Bool}
    (h : scanText same ws cs = some (taken, rest)) :
    taken ++ rest = cs ∧ taken.length = ws.length := by
  fun_induction scanText same ws cs generalizing taken rest with
  | case1 cs =>
    cases h
    exact ⟨rfl, rfl⟩
  | case2 => cases h
  | case3 w ws c cs hs ih =>
    obtain ⟨⟨more, rest'⟩, hm, he⟩ := Option.map_eq_some_iff.1 h
    cases he
    obtain ⟨happ, hlen⟩ := ih hm
    exact ⟨congrArg (c :: ·) happ, congrArg (· + 1) hlen⟩
  | case4 => cases h

theorem append_of_scanMany {scan : List Char → Option (List Char × List Char)}
    (h : ∀ {cs taken rest}, scan cs = some (taken, rest) → taken ++ rest = cs) (n : Nat)
    (cs : List Char) : (scanMany scan n cs).1 ++ (scanMany scan n cs).2 = cs := by
  induction n generalizing cs with
  | zero => rfl
  | succ n ih =>
    rw [scanMany]
    split
    · rfl
    · rename_i taken rest hs
      rw [List.append_assoc, ih, h hs]

theorem scan_seq_of_none {a b : Pattern} (h : a.scan cs = none) : (seq a b).scan cs = none := by
  simp [h]

theorem scan_seq_of_some {a b : Pattern} (h : a.scan cs = some (taken, rest)) :
    (seq a b).scan cs = (b.scan rest).map fun (more, rest) => (taken ++ more, rest) := by
  simp [h]

theorem exists_of_scan_seq {a b : Pattern} (h : (seq a b).scan cs = some (taken, rest)) :
    ∃ first mid more, a.scan cs = some (first, mid) ∧ b.scan mid = some (more, rest) ∧
      taken = first ++ more := by
  rw [scan] at h
  split at h
  · cases h
  · rename_i first mid ha
    obtain ⟨⟨more, rest'⟩, hb, he⟩ := Option.map_eq_some_iff.1 h
    cases he
    exact ⟨first, mid, more, ha, hb, rfl⟩

/-- What is taken and what is left are the text. -/
theorem append_of_scan {p : Pattern} (h : p.scan cs = some (taken, rest)) : taken ++ rest = cs := by
  induction p generalizing cs taken rest with
  | text ws => exact (append_of_scanText h).1
  | anyCase ws => exact (append_of_scanText h).1
  | one cls =>
    cases cs with
    | nil => cases h
    | cons c cs =>
      rw [scan] at h
      split at h
      · cases h
        rfl
      · cases h
  | seq a b iha ihb =>
    obtain ⟨first, mid, more, ha, hb, rfl⟩ := exists_of_scan_seq h
    rw [List.append_assoc, ihb hb, iha ha]
  | choice a b iha ihb =>
    rw [scan] at h
    split at h
    · exact ihb h
    · rename_i ha
      cases h
      exact iha ha
  | optional a ih =>
    rw [scan] at h
    split at h
    · cases h
      rfl
    · rename_i ha
      cases h
      exact ih ha
  | many a ih =>
    have happ := append_of_scanMany ih cs.length cs
    rw [Option.some.inj h] at happ
    exact happ
  | «unless» a ih =>
    rw [scan] at h
    split at h
    · cases h
      rfl
    · cases h

def nullable : Pattern → Bool
  | .text cs | .anyCase cs => cs.isEmpty
  | .one _ => false
  | .seq a b => a.nullable && b.nullable
  | .choice a b => a.nullable || b.nullable
  | .optional _ | .many _ | .unless _ => true

theorem ne_nil_of_scan {p : Pattern} (hp : p.nullable = false)
    (h : p.scan cs = some (taken, rest)) : taken ≠ [] := by
  induction p generalizing cs taken rest with
  | text ws | anyCase ws =>
    rintro rfl
    have hlen := (append_of_scanText h).2
    cases ws with
    | nil => cases hp
    | cons w ws => cases hlen
  | one cls =>
    cases cs with
    | nil => cases h
    | cons c cs =>
      rw [scan] at h
      split at h
      · cases h
        exact List.cons_ne_nil _ _
      · cases h
  | seq a b iha ihb =>
    obtain ⟨first, mid, more, ha, hb, rfl⟩ := exists_of_scan_seq h
    intro hnil
    obtain ⟨h₁, h₂⟩ := List.append_eq_nil_iff.1 hnil
    rcases Bool.and_eq_false_iff.1 hp with hn | hn
    · exact iha hn ha h₁
    · exact ihb hn hb h₂
  | choice a b iha ihb =>
    obtain ⟨hna, hnb⟩ := Bool.or_eq_false_iff.1 hp
    rw [scan] at h
    split at h
    · exact ihb hnb h
    · rename_i ha
      cases h
      exact iha hna ha
  | optional | many | «unless» => cases hp

theorem length_le_of_scan {p : Pattern} (h : p.scan cs = some (taken, rest)) :
    rest.length ≤ cs.length := by
  rw [← append_of_scan h, List.length_append]
  exact Nat.le_add_left _ _

theorem length_lt_of_scan {p : Pattern} (hp : p.nullable = false)
    (h : p.scan cs = some (taken, rest)) : rest.length < cs.length := by
  rw [← append_of_scan h, List.length_append]
  exact Nat.lt_add_of_pos_left (List.length_pos_iff.2 (ne_nil_of_scan hp h))

theorem scanMany_of_stuck {scan : List Char → Option (List Char × List Char)}
    (h : scan cs = some ([], cs)) (n : Nat) : scanMany scan n cs = ([], cs) := by
  induction n with
  | zero => rfl
  | succ n ih =>
    simp [h, ih]

/-- Bounds that are no less than the length of the text make no difference. -/
theorem scanMany_eq {p : Pattern} (hn : cs.length ≤ n) (hm : cs.length ≤ m) :
    scanMany p.scan n cs = scanMany p.scan m cs := by
  induction n generalizing cs m with
  | zero =>
    cases List.length_eq_zero_iff.1 (Nat.le_zero.1 hn)
    cases hs : p.scan [] with
    | none => cases m <;> simp [hs]
    | some r =>
      obtain ⟨taken, rest⟩ := r
      obtain ⟨rfl, rfl⟩ := List.append_eq_nil_iff.1 (append_of_scan hs)
      rw [scanMany_of_stuck hs, scanMany_of_stuck hs]
  | succ n ih =>
    cases hs : p.scan cs with
    | none => cases m <;> simp [hs]
    | some r =>
      obtain ⟨taken, rest⟩ := r
      have happ := append_of_scan hs
      by_cases ht : taken = []
      · subst ht happ
        rw [scanMany_of_stuck hs, scanMany_of_stuck hs]
      · have hlen : rest.length < cs.length := by
          rw [← happ, List.length_append]
          exact Nat.lt_add_of_pos_left (List.length_pos_iff.2 ht)
        cases m with
        | zero => omega
        | succ m =>
          have hrest : scanMany p.scan n rest = scanMany p.scan m rest := ih (by omega) (by omega)
          simp [hs, hrest]

theorem scan_many_of_none {p : Pattern} (h : p.scan cs = none) :
    (many p).scan cs = some ([], cs) := by
  rw [scan]
  cases cs with
  | nil => rfl
  | cons c cs => simp [h]

theorem scan_many_of_some {p : Pattern} (h : p.scan cs = some (taken, rest)) :
    (many p).scan cs =
      ((many p).scan rest).map fun (more, rest) => (taken ++ more, rest) := by
  have hrest : scanMany p.scan cs.length rest = scanMany p.scan rest.length rest :=
    scanMany_eq (length_le_of_scan h) (Nat.le_refl _)
  rw [scan, scan, scanMany_eq (Nat.le_refl _) (Nat.le_succ _)]
  simp only [scanMany, h, hrest, Option.map_some]

end FeatureFilter.Grammar.Pattern
