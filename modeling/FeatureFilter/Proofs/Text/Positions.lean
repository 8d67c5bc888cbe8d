import FeatureFilter.Text.Position

namespace FeatureFilter.Text

namespace Position

theorem offset_advance (p : Position) (c : Char) :
    (p.advance c).offset = p.offset + c.utf8Size := by
  rw [advance]
  split
  · rename_i hc
    rw [hc]
    rfl
  · rfl

theorem offset_after (p : Position) (cs : List Char) :
    (p.after cs).offset = p.offset + (String.ofList cs).utf8ByteSize := by
  induction cs generalizing p with
  | nil => rfl
  | cons c cs ih =>
    have hsplit : String.ofList (c :: cs) = String.singleton c ++ String.ofList cs := by
      rw [String.singleton_eq_ofList, ← String.ofList_append]
      rfl
    rw [hsplit, String.utf8ByteSize_append, String.utf8ByteSize_singleton, ← Nat.add_assoc,
      ← offset_advance]
    exact ih (p.advance c)

theorem line_after (p : Position) (cs : List Char) :
    (p.after cs).line = p.line + cs.count '\n' := by
  induction cs generalizing p with
  | nil => rfl
  | cons c cs ih =>
    have hstep : (p.advance c).line + cs.count '\n' = p.line + (c :: cs).count '\n' := by
      rw [advance, List.count_cons]
      split
      · rename_i hc
        rw [if_pos (beq_iff_eq.2 hc)]
        show p.line + 1 + cs.count '\n' = _
        omega
      · rename_i hc
        rw [if_neg (fun he => hc (beq_iff_eq.1 he))]
        rfl
    exact (ih (p.advance c)).trans hstep

def lastLine (cs : List Char) : List Char := (cs.reverse.takeWhile (· != '\n')).reverse

theorem column_after (cs : List Char) :
    (origin.after cs).column = 1 + (lastLine cs).length := by
  -- The last character decides, so the induction takes characters off the end.
  induction h : cs.reverse generalizing cs with
  | nil =>
    cases List.reverse_eq_nil_iff.1 h
    rfl
  | cons c ds ih =>
    obtain rfl : cs = ds.reverse ++ [c] := by
      rw [← List.reverse_cons, ← h, List.reverse_reverse]
    have hlast := ih ds.reverse (List.reverse_reverse ds)
    rw [lastLine, List.length_reverse, List.reverse_reverse] at hlast
    have hstep : origin.after (ds.reverse ++ [c]) = (origin.after ds.reverse).advance c :=
      List.foldl_append
    rw [hstep, lastLine, List.length_reverse, h, advance]
    split
    · rename_i hc
      rw [List.takeWhile_cons_of_neg (by simp [hc])]
      rfl
    · rename_i hc
      rw [List.takeWhile_cons_of_pos (by simp [hc]), List.length_cons]
      show (origin.after ds.reverse).column + 1 = _
      rw [hlast]
      omega

end Position

open Position (lastLine)

/-- A span marks a stretch of a text: its ends are at characters, and its line and its column are
those of the first. -/
def Span.Marks (s : Span) (text stretch : String) : Prop :=
  ∃ before behind : String, text = before ++ stretch ++ behind ∧
    s.start = before.utf8ByteSize ∧ s.stop = (before ++ stretch).utf8ByteSize ∧
    s.line = 1 + before.toList.count '\n' ∧ s.column = 1 + (lastLine before.toList).length

theorem Span.marks_between (before stretch behind : List Char) :
    (between (Position.origin.after before) (Position.origin.after (before ++ stretch))).Marks
      (.ofList (before ++ stretch ++ behind)) (.ofList stretch) := by
  refine ⟨.ofList before, .ofList behind, ?_, ?_, ?_, ?_, ?_⟩
  · rw [String.ofList_append, String.ofList_append]
  · exact (Position.offset_after _ before).trans (Nat.zero_add _)
  · rw [← String.ofList_append]
    exact (Position.offset_after _ (before ++ stretch)).trans (Nat.zero_add _)
  · rw [String.toList_ofList]
    exact Position.line_after _ before
  · rw [String.toList_ofList]
    exact Position.column_after before

theorem Span.Marks.bounds (h : Span.Marks s text stretch) :
    s.start ≤ s.stop ∧ s.stop ≤ text.utf8ByteSize := by
  obtain ⟨before, behind, rfl, hstart, hstop, -⟩ := h
  rw [hstart, hstop]
  simp only [String.utf8ByteSize_append]
  omega

end FeatureFilter.Text
