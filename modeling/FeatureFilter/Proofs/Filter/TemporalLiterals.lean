import FeatureFilter.Proofs.Time.Written
import FeatureFilter.Sql.Value

namespace FeatureFilter

namespace Time

theorem foldl_digits_lt {ds : List Char} (h : ds.all Char.isDigit = true) (n : Nat) :
    ds.foldl (fun n d => 10 * n + (d.toNat - '0'.toNat)) n < (n + 1) * 10 ^ ds.length := by
  -- The value of the digits in front is carried along, so it is general.
  induction ds generalizing n with
  | nil => simp
  | cons d ds ih =>
    obtain ⟨hd, hds⟩ := Bool.and_eq_true_iff.1 (List.all_cons.symm.trans h)
    have hdigit : d.toNat - '0'.toNat ≤ 9 := by
      have hc := toNat_of_isDigit hd
      have hzero : '0'.toNat = 48 := rfl
      omega
    have hfirst : 10 * n + (d.toNat - '0'.toNat) + 1 ≤ 10 * (n + 1) := by omega
    calc (d :: ds).foldl (fun n d => 10 * n + (d.toNat - '0'.toNat)) n
        < (10 * n + (d.toNat - '0'.toNat) + 1) * 10 ^ ds.length := ih hds _
      _ ≤ 10 * (n + 1) * 10 ^ ds.length := Nat.mul_le_mul_right _ hfirst
      _ = (n + 1) * 10 ^ (d :: ds).length := by
        rw [List.length_cons, Nat.pow_succ, Nat.mul_comm 10, Nat.mul_assoc, Nat.mul_comm 10]

theorem lt_of_readNumber (h : readNumber least most cs = some (n, rest)) : n < 10 ^ most := by
  obtain ⟨⟨ds, rest'⟩, hd, he⟩ := Option.map_eq_some_iff.1 h
  cases he
  simp only [readDigits] at hd
  split at hd
  · cases hd
    have hall : ((cs.take most).takeWhile Char.isDigit).all Char.isDigit = true :=
      List.all_takeWhile
    have hlen : ((cs.take most).takeWhile Char.isDigit).length ≤ most :=
      Nat.le_trans (List.takeWhile_sublist _).length_le (List.length_take_le _ _)
    have hlt := foldl_digits_lt hall 0
    rw [Nat.zero_add, Nat.one_mul] at hlt
    exact Nat.lt_of_lt_of_le hlt (Nat.pow_le_pow_right (by decide) hlen)
  · cases hd

/-- The last day before the years of four digits, and the first day behind them. -/
def Date.BordersYears (d : Date) : Prop :=
  d.year = -1 ∧ d.month = 12 ∧ d.day = 31 ∨ d.year = 10000 ∧ d.month = 1 ∧ d.day = 1

theorem Date.eq_of_of? {d : Date} (h : of? y m k = some d) :
    d.year = y ∧ d.month = m ∧ d.day = k := by
  unfold of? at h
  split at h
  · cases h
    exact ⟨rfl, rfl, rfl⟩
  · cases h

theorem Date.year_of_next? {d e : Date} (h : d.next? = some e) :
    e.year = d.year ∨ e.year = d.year + 1 ∧ e.month = 1 ∧ e.day = 1 := by
  unfold next? at h
  split at h
  · exact .inl (eq_of_of? h).1
  · split at h
    · exact .inl (eq_of_of? h).1
    · exact .inr (eq_of_of? h)

theorem Date.year_of_prev? {d e : Date} (h : d.prev? = some e) :
    e.year = d.year ∨ e.year = d.year - 1 ∧ e.month = 12 ∧ e.day = 31 := by
  unfold prev? at h
  split at h
  · exact .inl (eq_of_of? h).1
  · split at h
    · exact .inl (eq_of_of? h).1
    · exact .inr (eq_of_of? h)

/-- An offset moves an instant by a day at most. -/
theorem Instant.date_of_of? {date : Date} {t : Instant} (h : of? date n k = some t) :
    date.prev? = some t.date ∨ t.date = date ∨ date.next? = some t.date := by
  have hdate {day : Date} {within : Nat} (h : (if h : IsTime within k then
      some (⟨day, within, k, h⟩ : Instant) else none) = some t) : day = t.date := by
    split at h
    · cases h
      rfl
    · cases h
  unfold of? at h
  split at h
  · obtain ⟨day, hday, h⟩ := Option.bind_eq_some_iff.1 h
    exact .inl (hdate h ▸ hday)
  · split at h
    · exact .inr (.inl (hdate h).symm)
    · obtain ⟨day, hday, h⟩ := Option.bind_eq_some_iff.1 h
      exact .inr (.inr (hdate h ▸ hday))

theorem Instant.exists_date_of_read? {t : Instant} (h : read? cs = some t) :
    ∃ date : Date, (0 ≤ date.year ∧ date.year ≤ 9999) ∧
      (date.prev? = some t.date ∨ t.date = date ∨ date.next? = some t.date) := by
  obtain ⟨⟨year, _⟩, hyear, h⟩ := Option.bind_eq_some_iff.1 h
  obtain ⟨_, -, h⟩ := Option.bind_eq_some_iff.1 h
  obtain ⟨⟨month, _⟩, -, h⟩ := Option.bind_eq_some_iff.1 h
  obtain ⟨_, -, h⟩ := Option.bind_eq_some_iff.1 h
  obtain ⟨⟨day, _⟩, -, h⟩ := Option.bind_eq_some_iff.1 h
  obtain ⟨date, hdate, h⟩ := Option.bind_eq_some_iff.1 h
  obtain ⟨_, -, h⟩ := Option.bind_eq_some_iff.1 h
  obtain ⟨⟨hour, _⟩, -, h⟩ := Option.bind_eq_some_iff.1 h
  obtain ⟨_, -, h⟩ := Option.bind_eq_some_iff.1 h
  obtain ⟨⟨minute, _⟩, -, h⟩ := Option.bind_eq_some_iff.1 h
  obtain ⟨_, -, h⟩ := Option.bind_eq_some_iff.1 h
  obtain ⟨⟨second, _⟩, -, h⟩ := Option.bind_eq_some_iff.1 h
  obtain ⟨⟨fraction, _⟩, -, h⟩ := Option.bind_eq_some_iff.1 h
  obtain ⟨⟨offset, _⟩, -, h⟩ := Option.bind_eq_some_iff.1 h
  have hlt := lt_of_readNumber hyear
  have hfour := (Date.eq_of_of? hdate).1
  refine ⟨date, by omega, ?_⟩
  dsimp only at h
  split at h
  · unfold ofParts? at h
    split at h
    · exact date_of_of? h
    · cases h
  · cases h

theorem Instant.year_of_read? {t : Instant} (h : read? cs = some t) :
    (0 ≤ t.date.year ∧ t.date.year ≤ 9999) ∨ t.date.BordersYears := by
  obtain ⟨date, hyear, hprev | rfl | hnext⟩ := exists_date_of_read? h
  · rcases Date.year_of_prev? hprev with he | he
    · exact .inl (he ▸ hyear)
    · by_cases hzero : date.year = 0
      · exact .inr (.inl ⟨by omega, he.2⟩)
      · exact .inl (by omega)
  · exact .inl hyear
  · rcases Date.year_of_next? hnext with he | he
    · exact .inl (he ▸ hyear)
    · by_cases hlast : date.year = 9999
      · exact .inr (.inr ⟨by omega, he.2⟩)
      · exact .inl (by omega)

/-- Where the shown form of an instant that was read is not read again. -/
theorem Instant.ofString?_toString_eq_none_iff {t : Instant} (h : ofString? s = some t) :
    ofString? (toString t) = none ↔ t.date.BordersYears := by
  rw [ofString?_toString]
  constructor
  · intro hnone
    refine (year_of_read? h).resolve_left fun hyear => ?_
    rw [if_pos hyear] at hnone
    cases hnone
  · intro hborder
    refine if_neg fun hyear => ?_
    rcases hborder with ⟨he, -⟩ | ⟨he, -⟩
    · omega
    · omega

end Time

open Sql (Value)
open Time (Date Instant)

/-- What stands in the quotes of a written timestamp or date is also how the bound value is shown.
It is read as the same date, and as the same instant unless an offset has moved that out of the
years of four digits. -/
theorem Literal.temporal_readback :
    (∀ (source : String) (t : Instant), Instant.ofString? source = some t →
      ∃ body, (Literal.timestamp t).write = "TIMESTAMP('" ++ body ++ "')" ∧
        (Value.timestamp t).write = body ∧
        (0 ≤ t.date.year → t.date.year ≤ 9999 → Instant.ofString? body = some t) ∧
        (Instant.ofString? body = none ↔ t.date.BordersYears)) ∧
    (∀ (source : String) (d : Date), Date.ofString? source = some d →
      ∃ body, (Literal.date d).write = "DATE('" ++ body ++ "')" ∧
        (Value.date d).write = body ∧ Date.ofString? body = some d) := by
  refine ⟨fun source t ht => ⟨toString t, rfl, rfl, fun hleast hmost => ?_, ?_⟩,
    fun source d hd => ⟨toString d, rfl, rfl, d.ofString?_toString⟩⟩
  · rw [t.ofString?_toString, if_pos ⟨hleast, hmost⟩]
  · exact Instant.ofString?_toString_eq_none_iff ht

/-- A leap second that its offset moves to the year before, an instant that its offset moves out of
the years of four digits, and a date with a longer year. -/
theorem Literal.temporal_readback_moved :
    (∃ t : Instant, Instant.ofString? "2017-01-01T00:59:60.25+01:00" = some t ∧
      (Literal.timestamp t).write = "TIMESTAMP('2016-12-31T23:59:60.250Z')" ∧
      Instant.ofString? "2016-12-31T23:59:60.250Z" = some t) ∧
    (∃ t : Instant, Instant.ofString? "0000-01-01T00:00:59+00:01" = some t ∧
      (Literal.timestamp t).write = "TIMESTAMP('-0001-12-31T23:59:59Z')" ∧
      Instant.ofString? "-0001-12-31T23:59:59Z" = none) ∧
    (∃ d : Date, Date.ofString? "+012028- 2-29" = some d ∧
      (Literal.date d).write = "DATE('+12028-02-29')" ∧
      Date.ofString? "+12028-02-29" = some d) := by
  obtain ⟨hinstant, hdate⟩ := Literal.temporal_readback
  have hleap : Instant.ofString? "2017-01-01T00:59:60.25+01:00" =
      some ⟨⟨2016, 12, 31, by decide⟩, 86399, 1250000000, by decide⟩ := rfl
  have hearly : Instant.ofString? "0000-01-01T00:00:59+00:01" =
      some ⟨⟨-1, 12, 31, by decide⟩, 86399, 0, by decide⟩ := rfl
  have hlong : Date.ofString? "+012028- 2-29" = some ⟨12028, 2, 29, by decide⟩ := rfl
  refine ⟨⟨_, hleap, rfl, ?_⟩, ⟨_, hearly, rfl, ?_⟩, ⟨_, hlong, rfl, ?_⟩⟩
  · obtain ⟨_, -, rfl, hread, -⟩ := hinstant _ _ hleap
    exact hread (by decide) (by decide)
  · obtain ⟨_, -, rfl, -, hborder⟩ := hinstant _ _ hearly
    exact hborder.2 (.inl ⟨rfl, rfl, rfl⟩)
  · obtain ⟨_, -, rfl, hread⟩ := hdate _ _ hlong
    exact hread

end FeatureFilter
