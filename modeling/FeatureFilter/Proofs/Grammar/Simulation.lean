import FeatureFilter.Proofs.Grammar.Trees

namespace FeatureFilter.Grammar

open ParseTree (unplacedEach)

variable {ρ : Type}

/-- Tasks and points such that all trials that come up in such a task at such a point are of the
same kind. -/
structure RuleSet.Closed (g : RuleSet ρ) (Ok : Task ρ → Cursor → Prop) : Prop where
  noEnd : ∀ {c}, ¬Ok (.phrase .endOfText) c
  node : ∀ {r e c}, Ok (.phrase (.rule r)) c → g.define r = .phrase e → Ok (.phrase e) c
  seq : ∀ {x y c}, Ok (.phrase (.seq x y)) c → Ok (.phrase x) c ∧
    ∀ d ts, Derives g (.phrase x) c (some (d, ts)) → Ok (.phrase y) d.skipBlanks
  choice : ∀ {x y c}, Ok (.phrase (.choice x y)) c → Ok (.phrase x) c ∧ Ok (.phrase y) c
  optional : ∀ {x c}, Ok (.phrase (.optional x)) c → Ok (.phrase x) c
  many : ∀ {x c}, Ok (.phrase (.many x)) c → Ok (.phrase x) c ∧
    ∀ d ts, Derives g (.phrase x) c (some (d, ts)) → Ok (.again x) d
  again : ∀ {x c}, Ok (.again x) c → Ok (.phrase x) c.skipBlanks ∧
    ∀ d ts, Derives g (.phrase x) c.skipBlanks (some (d, ts)) → Ok (.again x) d

/-- In such trials the tokens and marks take the same of a text changed by `f`. -/
structure RuleSet.Simulates (g : RuleSet ρ) (Ok : Task ρ → Cursor → Prop)
    (f : List Char → List Char) : Prop extends g.Closed Ok where
  blanks : ∀ cs, f (cs.dropWhile isBlank) = (f cs).dropWhile isBlank
  mark : ∀ {ws c}, Ok (.phrase (.mark ws)) c → Pattern.scan (.text ws) (f c.rest) =
    (Pattern.scan (.text ws) c.rest).map fun m => (m.1, f m.2)
  token : ∀ {r p c}, Ok (.phrase (.rule r)) c → g.define r = .token p →
    p.scan (f c.rest) = (p.scan c.rest).map fun m => (m.1, f m.2)

def Result.Carried (f : List Char → List Char) : Result ρ → Result ρ → Prop
  | none, o => o = none
  | some (d, ts), o => ∃ d' ts', o = some (d', ts') ∧ d'.rest = f d.rest ∧
    unplacedEach ts' = unplacedEach ts

variable {g : RuleSet ρ} {Ok : Task ρ → Cursor → Prop} {f : List Char → List Char}

theorem RuleSet.Simulates.rest_skipBlanks {c c' : Cursor} (hg : g.Simulates Ok f)
    (h : c'.rest = f c.rest) :
    c'.skipBlanks.rest = f c.skipBlanks.rest := by
  show c'.rest.dropWhile isBlank = f (c.rest.dropWhile isBlank)
  rw [h, hg.blanks]

theorem Derives.simulate (hg : g.Simulates Ok f) (h : Derives g t c o) (ht : Ok t c)
    (hc' : c'.rest = f c.rest) : ∃ o', Derives g t c' o' ∧ Result.Carried f o o' := by
  induction h generalizing c' with
  | nothing => exact ⟨_, .nothing, _, _, rfl, hc', rfl⟩
  | endOfText | notEnd => exact absurd ht hg.noEnd
  | mark hs =>
    have hscan := hg.mark ht
    rw [hs, ← hc'] at hscan
    exact ⟨_, .mark hscan, _, _, rfl, rfl, rfl⟩
  | noMark hs =>
    have hscan := hg.mark ht
    rw [hs, ← hc'] at hscan
    exact ⟨_, .noMark hscan, rfl⟩
  | token hd hs =>
    have hscan := hg.token ht hd
    rw [hs, ← hc'] at hscan
    exact ⟨_, .token hd hscan, _, _, rfl, rfl, rfl⟩
  | noToken hd hs =>
    have hscan := hg.token ht hd
    rw [hs, ← hc'] at hscan
    exact ⟨_, .noToken hd hscan, rfl⟩
  | node hd _ ih =>
    obtain ⟨_, he, d, ts, rfl, hrest, htrees⟩ := ih (hg.node ht hd) hc'
    exact ⟨_, .node hd he, _, _, rfl, hrest, congrArg ([ParseTree.node _ .zero ·]) htrees⟩
  | noNode hd _ ih =>
    obtain ⟨_, he, rfl⟩ := ih (hg.node ht hd) hc'
    exact ⟨_, .noNode hd he, rfl⟩
  | seq hx _ ihx ihy =>
    obtain ⟨htx, hty⟩ := hg.seq ht
    obtain ⟨_, hx', d, ts, rfl, hrest, htrees⟩ := ihx htx hc'
    obtain ⟨_, hy', d', ts', rfl, hrest', htrees'⟩ := ihy (hty _ _ hx) (hg.rest_skipBlanks hrest)
    refine ⟨_, .seq hx' hy', _, _, rfl, hrest', ?_⟩
    rw [ParseTree.unplacedEach_append, ParseTree.unplacedEach_append, htrees, htrees']
  | seqLeft _ ihx =>
    obtain ⟨_, hx', rfl⟩ := ihx (hg.seq ht).1 hc'
    exact ⟨_, .seqLeft hx', rfl⟩
  | seqRight hx _ ihx ihy =>
    obtain ⟨htx, hty⟩ := hg.seq ht
    obtain ⟨_, hx', d, ts, rfl, hrest, htrees⟩ := ihx htx hc'
    obtain ⟨_, hy', rfl⟩ := ihy (hty _ _ hx) (hg.rest_skipBlanks hrest)
    exact ⟨_, .seqRight hx' hy', rfl⟩
  | choiceLeft _ ih =>
    obtain ⟨_, hx', d, ts, rfl, hrest, htrees⟩ := ih (hg.choice ht).1 hc'
    exact ⟨_, .choiceLeft hx', _, _, rfl, hrest, htrees⟩
  | choiceRight _ _ ihx ihy =>
    obtain ⟨htx, hty⟩ := hg.choice ht
    obtain ⟨_, hx', rfl⟩ := ihx htx hc'
    obtain ⟨o', hy', hcarried⟩ := ihy hty hc'
    exact ⟨o', .choiceRight hx' hy', hcarried⟩
  | optional _ ih =>
    obtain ⟨_, hx', d, ts, rfl, hrest, htrees⟩ := ih (hg.optional ht) hc'
    exact ⟨_, .optional hx', _, _, rfl, hrest, htrees⟩
  | absent _ ih =>
    obtain ⟨_, hx', rfl⟩ := ih (hg.optional ht) hc'
    exact ⟨_, .absent hx', _, _, rfl, hc', rfl⟩
  | many hx _ ihx ihm =>
    obtain ⟨htx, htm⟩ := hg.many ht
    obtain ⟨_, hx', d, ts, rfl, hrest, htrees⟩ := ihx htx hc'
    obtain ⟨_, hm', d', ts', rfl, hrest', htrees'⟩ := ihm (htm _ _ hx) hrest
    refine ⟨_, .many hx' hm', _, _, rfl, hrest', ?_⟩
    rw [ParseTree.unplacedEach_append, ParseTree.unplacedEach_append, htrees, htrees']
  | never _ ih =>
    obtain ⟨_, hx', rfl⟩ := ih (hg.many ht).1 hc'
    exact ⟨_, .never hx', _, _, rfl, hc', rfl⟩
  | again hx _ ihx ihm =>
    obtain ⟨htx, htm⟩ := hg.again ht
    obtain ⟨_, hx', d, ts, rfl, hrest, htrees⟩ := ihx htx (hg.rest_skipBlanks hc')
    obtain ⟨_, hm', d', ts', rfl, hrest', htrees'⟩ := ihm (htm _ _ hx) hrest
    refine ⟨_, .again hx' hm', _, _, rfl, hrest', ?_⟩
    rw [ParseTree.unplacedEach_append, ParseTree.unplacedEach_append, htrees, htrees']
  | done _ ih =>
    obtain ⟨_, hx', rfl⟩ := ih (hg.again ht).1 (hg.rest_skipBlanks hc')
    exact ⟨_, .done hx', _, _, rfl, hc', rfl⟩

end FeatureFilter.Grammar
