import FeatureFilter.Collection.Registry
import FeatureFilter.Proofs.Collection.Documents
import FeatureFilter.Proofs.Collection.Mapping
import FeatureFilter.Proofs.Text.ByteOrder

namespace FeatureFilter

namespace Registry

/-- The registry after collections were offered to it one after the other. -/
def offerAll (r : Registry) (cs : List Collection) : Registry :=
  cs.foldl (fun r c => (r.offer c).2) r

/-- The registries that come about, from nothing or from a document. -/
inductive Reached : Registry → Prop
  | empty : Reached .empty
  | loaded : ofJsonText text = .ok r → Reached r
  | offered : Reached r → Reached (r.offer c).2

/-- What holds of a registry at all times. -/
structure Sound (r : Registry) : Prop where
  keyed : ∀ id c, (id, c) ∈ r.collections.entries → c.id = id
  valid : ∀ c ∈ r.toList, c.validate = .ok ()
  ordered : (r.toList.map fun c => Text.bytes c.id).Pairwise (· < ·)
  counted : r.size = r.toList.length

/-- What can become of a collection: a flaw is looked for before a taken id, and the registry only
changes if there is neither. -/
theorem offer_cases (r : Registry) (c : Collection) :
    (∃ e, c.validate = .error e ∧ r.offer c = (.error e, r)) ∨
    (c.validate = .ok () ∧ (∃ c', r.get? c.id = some c') ∧
      r.offer c = (.error (.duplicate c.id), r)) ∨
    (c.validate = .ok () ∧ r.get? c.id = none ∧
      r.offer c = (.ok (), ⟨r.collections.insert c.id c⟩)) := by
  rw [offer]
  cases c.validate with
  | error e => exact .inl ⟨e, rfl, rfl⟩
  | ok u =>
    cases hg : r.get? c.id with
    | some c' => exact .inr (.inl ⟨rfl, ⟨c', rfl⟩, rfl⟩)
    | none => exact .inr (.inr ⟨rfl, rfl, rfl⟩)

theorem register_of_offer_ok (h : offer r c = (.ok (), r')) : r.register c = .ok r' := by
  rw [register, h]

theorem register_of_offer_error (h : offer r c = (.error e, r')) : r.register c = .error e := by
  rw [register, h]

theorem register_ok_iff (r : Registry) (c : Collection) :
    r.register c = .ok r' ↔
      c.validate = .ok () ∧ r.get? c.id = none ∧ r' = ⟨r.collections.insert c.id c⟩ := by
  rcases offer_cases r c with ⟨e, hv, ho⟩ | ⟨hv, ⟨c', hg⟩, ho⟩ | ⟨hv, hg, ho⟩
  · rw [register_of_offer_error ho, hv]
    simp
  · rw [register_of_offer_error ho, hg]
    simp
  · rw [register_of_offer_ok ho, hv, hg]
    simp [eq_comm]

theorem exists_register_iff (r : Registry) (c : Collection) :
    (∃ r', r.register c = .ok r') ↔ c.validate = .ok () ∧ r.get? c.id = none := by
  constructor
  · intro h
    obtain ⟨r', h⟩ := h
    obtain ⟨hvalid, hnew, -⟩ := (register_ok_iff r c).1 h
    exact ⟨hvalid, hnew⟩
  · intro h
    exact ⟨_, (register_ok_iff r c).2 ⟨h.1, h.2, rfl⟩⟩

theorem offer_of_ok (h : register r c = .ok r') : r.offer c = (.ok (), r') := by
  rcases offer_cases r c with ⟨e, -, ho⟩ | ⟨-, -, ho⟩ | ⟨-, -, ho⟩
  · cases (register_of_offer_error ho).symm.trans h
  · cases (register_of_offer_error ho).symm.trans h
  · cases (register_of_offer_ok ho).symm.trans h
    exact ho

theorem offer_of_error (h : register r c = .error e) : r.offer c = (.error e, r) ∧
    (c.validate = .error e ∨ c.validate = .ok () ∧ e = .duplicate c.id) := by
  rcases offer_cases r c with ⟨e', hv, ho⟩ | ⟨hv, -, ho⟩ | ⟨-, -, ho⟩
  · cases (register_of_offer_error ho).symm.trans h
    exact ⟨ho, .inl hv⟩
  · cases (register_of_offer_error ho).symm.trans h
    exact ⟨ho, .inr ⟨hv, rfl⟩⟩
  · cases (register_of_offer_ok ho).symm.trans h

theorem entries_perm_of_register (h : register r c = .ok r') :
    r'.collections.entries.Perm ((c.id, c) :: r.collections.entries) := by
  obtain ⟨-, hnew, rfl⟩ := (register_ok_iff r c).1 h
  exact Entries.insert_perm (Entries.get?_eq_none_iff.1 hnew) c

theorem get?_of_register (h : register r c = .ok r') (id : String) :
    r'.get? id = if c.id = id then some c else r.get? id := by
  obtain ⟨-, -, rfl⟩ := (register_ok_iff r c).1 h
  exact Dictionary.get?_insert _ _ _ _

theorem get?_offer (h : get? r key = some c) (c' : Collection) :
    (r.offer c').2.get? key = some c := by
  cases hr : r.register c' with
  | error e => rw [(offer_of_error hr).1, h]
  | ok r' =>
    have hnew := ((register_ok_iff r c').1 hr).2.1
    have hne : c'.id ≠ key := by
      intro he
      rw [he, h] at hnew
      cases hnew
    rw [offer_of_ok hr, get?_of_register hr, if_neg hne, h]

theorem get?_offerAll (h : get? r key = some c) (cs : List Collection) :
    (r.offerAll cs).get? key = some c := by
  induction cs generalizing r with
  | nil => exact h
  | cons c' cs ih => exact ih (get?_offer h c')

theorem registerAll_cons (r : Registry) (c : Collection) (cs : List Collection) :
    r.registerAll (c :: cs) = r.register c >>= fun r' => r'.registerAll cs := List.foldlM_cons

def Kept (r : Registry) : Prop :=
  ∀ e ∈ r.collections.entries, e.2.id = e.1 ∧ e.2.validate = .ok ()

theorem Kept.register (h : Kept r) (hr : Registry.register r c = .ok r') : Kept r' := by
  intro e he
  rcases List.mem_cons.1 ((entries_perm_of_register hr).mem_iff.1 he) with rfl | he
  · exact ⟨rfl, ((register_ok_iff r c).1 hr).1⟩
  · exact h e he

theorem Kept.offer (h : Kept r) (c : Collection) : Kept (r.offer c).2 := by
  cases hr : r.register c with
  | error e =>
    rw [(offer_of_error hr).1]
    exact h
  | ok r' =>
    rw [offer_of_ok hr]
    exact h.register hr

theorem Kept.registerAll (h : Kept r) (hr : Registry.registerAll r cs = .ok r') : Kept r' := by
  induction cs generalizing r with
  | nil =>
    cases hr
    exact h
  | cons c cs ih =>
    rw [registerAll_cons] at hr
    cases hc : r.register c with
    | error e =>
      rw [hc] at hr
      cases hr
    | ok r₁ =>
      rw [hc] at hr
      exact ih (h.register hc) hr

theorem registerAll_of_ofJsonText (h : ofJsonText text = .ok r) :
    ∃ cs, collectionsOfJsonText text = .ok cs ∧ empty.registerAll cs = .ok r := by
  rw [ofJsonText] at h
  cases hc : collectionsOfJsonText text with
  | error e =>
    rw [hc] at h
    cases h
  | ok cs =>
    rw [hc] at h
    exact ⟨cs, rfl, h⟩

theorem Reached.kept (h : Reached r) : Kept r := by
  have hempty : Kept .empty := by
    intro e he
    cases he
  induction h with
  | empty => exact hempty
  | loaded h =>
    obtain ⟨cs, -, h⟩ := registerAll_of_ofJsonText h
    exact hempty.registerAll h
  | offered _ ih => exact ih.offer _

theorem Kept.sound (h : Kept r) : Sound r where
  keyed := by
    intro id c he
    exact (h (id, c) he).1
  valid := by
    intro c hc
    obtain ⟨e, he, rfl⟩ := List.mem_map.1 hc
    exact (h e he).2
  ordered := by
    have hids : r.toList.map (fun c => Text.bytes c.id) = r.collections.entries.map
        fun e => Text.bytes e.1 := by
      rw [toList, Dictionary.values, List.map_map]
      apply List.map_congr_left
      intro e he
      exact congrArg Text.bytes (h e he).1
    rw [hids, List.pairwise_map]
    exact r.collections.sorted.imp Text.bytes_lt
  counted := (List.length_map _).symm

/-- All collections are taken if they are valid and no id stands twice or is already taken. -/
theorem exists_registerAll_iff (r : Registry) (cs : List Collection) :
    (∃ r', r.registerAll cs = .ok r') ↔ (∀ c ∈ cs, c.validate = .ok ()) ∧
      (cs.map (·.id)).Nodup ∧ ∀ c ∈ cs, r.get? c.id = none := by
  induction cs generalizing r with
  | nil => exact iff_of_true ⟨r, rfl⟩ ⟨by simp, by simp, by simp⟩
  | cons c cs ih =>
    rw [registerAll_cons]
    cases hc : r.register c with
    | error e =>
      constructor
      · intro h
        obtain ⟨r', h⟩ := h
        cases h
      · intro h
        obtain ⟨r', hr⟩ := (exists_register_iff r c).2
          ⟨h.1 c List.mem_cons_self, h.2.2 c List.mem_cons_self⟩
        cases hc.symm.trans hr
    | ok r' =>
      obtain ⟨hvalid, hnew, -⟩ := (register_ok_iff r c).1 hc
      have hget : ∀ c' : Collection, r'.get? c'.id = none ↔ c.id ≠ c'.id ∧ r.get? c'.id = none := by
        intro c'
        rw [get?_of_register hc]
        by_cases he : c.id = c'.id
        · simp [he]
        · simp [he]
      have hrest := ih r'
      show (∃ r'', r'.registerAll cs = .ok r'') ↔ _
      rw [hrest, List.forall_mem_cons, List.forall_mem_cons, List.map_cons, List.nodup_cons]
      simp only [hget, hvalid, hnew, true_and]
      constructor
      · intro h
        obtain ⟨hall, hnodup, hfree⟩ := h
        refine ⟨hall, ⟨?_, hnodup⟩, fun c' hc' => (hfree c' hc').2⟩
        intro hm
        obtain ⟨c', hc', he⟩ := List.mem_map.1 hm
        exact (hfree c' hc').1 he.symm
      · intro h
        obtain ⟨hall, ⟨hnot, hnodup⟩, hfree⟩ := h
        refine ⟨hall, hnodup, fun c' hc' => ⟨?_, hfree c' hc'⟩⟩
        intro he
        exact hnot (List.mem_map.2 ⟨c', hc', he.symm⟩)

theorem entries_perm_of_registerAll (h : registerAll r cs = .ok r') :
    r'.collections.entries.Perm (cs.map (fun c => (c.id, c)) ++ r.collections.entries) := by
  induction cs generalizing r with
  | nil =>
    cases h
    exact .refl _
  | cons c cs ih =>
    rw [registerAll_cons] at h
    cases hc : r.register c with
    | error e =>
      rw [hc] at h
      cases h
    | ok r₁ =>
      rw [hc] at h
      rw [List.map_cons, List.cons_append]
      have hfirst := (entries_perm_of_register hc).append_left (cs.map fun c => (c.id, c))
      exact (ih h).trans (hfirst.trans List.perm_middle)

theorem registerAll_perm (h : List.Perm cs cs') (hr : empty.registerAll cs = .ok r) :
    empty.registerAll cs' = .ok r := by
  obtain ⟨hvalid, hnodup, hnew⟩ := (exists_registerAll_iff empty cs).1 ⟨r, hr⟩
  obtain ⟨r', hr'⟩ := (exists_registerAll_iff empty cs').2
    ⟨fun c hc => hvalid c (h.mem_iff.2 hc), (h.map _).nodup_iff.1 hnodup,
      fun c hc => hnew c (h.mem_iff.2 hc)⟩
  have hentries : r'.collections.entries.Perm r.collections.entries :=
    (entries_perm_of_registerAll hr').trans
      (((h.symm.map _).append_right _).trans (entries_perm_of_registerAll hr).symm)
  have hsame : r' = r := congrArg Registry.mk (Dictionary.eq_of_perm hentries)
  rw [hr', hsame]

theorem ofJsonText_eq (h : collectionsOfJsonText text = .ok cs) :
    ofJsonText text = empty.registerAll cs := by
  rw [ofJsonText, h]
  rfl

theorem exists_ofJsonText_iff (h : collectionsOfJsonText text = .ok cs) :
    (∃ r, ofJsonText text = .ok r) ↔ (∀ c ∈ cs, c.validate = .ok ()) ∧ (cs.map (·.id)).Nodup := by
  rw [ofJsonText_eq h, exists_registerAll_iff]
  constructor
  · intro h
    exact ⟨h.1, h.2.1⟩
  · intro h
    exact ⟨h.1, h.2, fun c _ => rfl⟩

/-- However a registry came about, it is sound; it takes exactly the valid collections whose ids are
free, and then holds one more; it names the flaw of a collection before a taken id, and what it
refuses leaves it as it was; and what it holds it holds for good. Every list of collections has a
document, and its documents are loaded exactly if the collections are valid and their ids differ,
with the same registry for every order of them. -/
theorem reached_sound (h : Reached r) :
    r.Sound ∧
    (∀ c, (∃ r', r.register c = .ok r') ↔ c.validate = .ok () ∧ r.get? c.id = none) ∧
    (∀ c r', r.register c = .ok r' → r.offer c = (.ok (), r') ∧ r'.toList.Perm (c :: r.toList) ∧
      ∀ key, r'.get? key = if c.id = key then some c else r.get? key) ∧
    (∀ c e, r.register c = .error e → r.offer c = (.error e, r) ∧
      (c.validate = .error e ∨ c.validate = .ok () ∧ e = .duplicate c.id)) ∧
    (∀ cs key c, r.get? key = some c → (r.offerAll cs).get? key = some c) ∧
    (∀ cs, collectionsOfJsonText (collectionsDocument cs) = .ok cs) ∧
    (∀ cs text, collectionsOfJsonText text = .ok cs →
      ((∃ r, ofJsonText text = .ok r) ↔
        (∀ c ∈ cs, c.validate = .ok ()) ∧ (cs.map (·.id)).Nodup) ∧
      ∀ cs' text' r, cs.Perm cs' → collectionsOfJsonText text' = .ok cs' →
        ofJsonText text = .ok r → ofJsonText text' = .ok r) := by
  refine ⟨h.kept.sound, exists_register_iff r, ?_, fun c e => offer_of_error, ?_,
    collectionsOfJsonText_document, ?_⟩
  · intro c r' hr
    exact ⟨offer_of_ok hr, (entries_perm_of_register hr).map Prod.snd, get?_of_register hr⟩
  · intro cs key c hc
    exact get?_offerAll hc cs
  · intro cs text hcs
    refine ⟨exists_ofJsonText_iff hcs, ?_⟩
    intro cs' text' r hperm hcs' hr
    rw [ofJsonText_eq hcs] at hr
    rw [ofJsonText_eq hcs']
    exact registerAll_perm hperm hr

/-- A registry of lakes to which lakes with a blank column were offered. They are refused for the
column, although their id is taken too, and the lakes that were there stay. -/
theorem reached_sound_lakes :
    ∃ r, r = ((empty.offer (lakes "lake_name")).2.offer (lakes " ")).2 ∧ Reached r ∧ r.Sound ∧
      r.size = 1 ∧ r.register (lakes " ") = .error (.invalid "lakes" (.blankColumn "name")) ∧
      r.offer (lakes " ") = (.error (.invalid "lakes" (.blankColumn "name")), r) := by
  have hreached : Reached ((empty.offer (lakes "lake_name")).2.offer (lakes " ")).2 :=
    .offered (.offered .empty)
  have hrefused : ((empty.offer (lakes "lake_name")).2.offer (lakes " ")).2.register (lakes " ") =
      .error (.invalid "lakes" (.blankColumn "name")) := rfl
  obtain ⟨hsound, -, -, herror, -⟩ := reached_sound hreached
  exact ⟨_, rfl, hreached, hsound, by decide, hrefused, (herror _ _ hrefused).1⟩

end Registry
end FeatureFilter
