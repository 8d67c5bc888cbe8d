namespace FeatureFilter.Text

/-- The bytes of a text in UTF-8. -/
def bytes (s : String) : List UInt8 := s.toUTF8.data.toList

theorem bytes_eq (s : String) : bytes s = s.toList.flatMap String.utf8EncodeChar := by
  have h : s.toUTF8 = (s.toList.flatMap String.utf8EncodeChar).toByteArray := by
    rw [String.toUTF8_eq_toByteArray, ← String.utf8Encode_toList]
    rfl
  rw [bytes, h, List.data_toByteArray]

theorem cons_ofNat_lt (h : a ≤ b) (hb : b < 256) (hrest : a = b → as < bs) :
    UInt8.ofNat a :: as < UInt8.ofNat b :: bs := by
  apply List.cons_lt_cons_iff.2
  by_cases he : a = b
  · subst he
    exact .inr ⟨rfl, hrest rfl⟩
  · have ha : a < 256 := by omega
    apply Or.inl
    rw [UInt8.lt_iff_toNat_lt, UInt8.toNat_ofNat_of_lt' ha, UInt8.toNat_ofNat_of_lt' hb]
    omega

/-- A smaller character has smaller bytes, whatever follows either. -/
theorem utf8EncodeChar_append_lt {c d : Char} (h : c < d) (as bs : List UInt8) :
    String.utf8EncodeChar c ++ as < String.utf8EncodeChar d ++ bs := by
  have hval : c.val.toNat < d.val.toNat := UInt32.lt_iff_toNat_lt.1 (Char.lt_def.1 h)
  have hbound : d.val.toNat < 0x110000 := by
    rcases d.valid with hd | hd
    · exact Nat.lt_trans hd (by decide)
    · exact hd.2
  generalize hv : c.val.toNat = v at hval
  generalize hw : d.val.toNat = w at hval hbound
  simp only [String.utf8EncodeChar, hv, hw]
  -- A character with more bytes has the greater first byte; among those with as many bytes, the
  -- bytes are the digits of the character to the base 64.
  by_cases hv₁ : v ≤ 0x7f
  · rw [if_pos hv₁]
    split
    · exact cons_ofNat_lt (by omega) (by omega) (by omega)
    · split
      · exact cons_ofNat_lt (by omega) (by omega) (by omega)
      · split
        · exact cons_ofNat_lt (by omega) (by omega) (by omega)
        · exact cons_ofNat_lt (by omega) (by omega) (by omega)
  · rw [if_neg hv₁, if_neg (show ¬w ≤ 0x7f by omega)]
    by_cases hv₂ : v ≤ 0x7ff
    · rw [if_pos hv₂]
      split
      · apply cons_ofNat_lt (by omega) (by omega)
        intro hfirst
        exact cons_ofNat_lt (by omega) (by omega) (by omega)
      · split
        · exact cons_ofNat_lt (by omega) (by omega) (by omega)
        · exact cons_ofNat_lt (by omega) (by omega) (by omega)
    · rw [if_neg hv₂, if_neg (show ¬w ≤ 0x7ff by omega)]
      by_cases hv₃ : v ≤ 0xffff
      · rw [if_pos hv₃]
        split
        · apply cons_ofNat_lt (by omega) (by omega)
          intro hfirst
          apply cons_ofNat_lt (by omega) (by omega)
          intro hsecond
          exact cons_ofNat_lt (by omega) (by omega) (by omega)
        · exact cons_ofNat_lt (by omega) (by omega) (by omega)
      · rw [if_neg hv₃, if_neg (show ¬w ≤ 0xffff by omega)]
        apply cons_ofNat_lt (by omega) (by omega)
        intro hfirst
        apply cons_ofNat_lt (by omega) (by omega)
        intro hsecond
        apply cons_ofNat_lt (by omega) (by omega)
        intro hthird
        exact cons_ofNat_lt (by omega) (by omega) (by omega)

theorem flatMap_utf8EncodeChar_lt {cs ds : List Char} (h : cs < ds) :
    cs.flatMap String.utf8EncodeChar < ds.flatMap String.utf8EncodeChar := by
  induction h with
  | @nil d ds =>
    rw [List.flatMap_nil, List.flatMap_cons]
    cases hd : String.utf8EncodeChar d with
    | nil => exact absurd hd String.utf8EncodeChar_ne_nil
    | cons b bs => exact .nil
  | cons _ ih =>
    rw [List.flatMap_cons, List.flatMap_cons]
    exact List.append_left_lt ih
  | rel hc =>
    rw [List.flatMap_cons, List.flatMap_cons]
    exact utf8EncodeChar_append_lt hc _ _

theorem bytes_lt {s t : String} (h : s < t) : bytes s < bytes t := by
  rw [bytes_eq, bytes_eq]
  exact flatMap_utf8EncodeChar_lt h

end FeatureFilter.Text
