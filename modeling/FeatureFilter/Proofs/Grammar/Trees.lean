import FeatureFilter.Proofs.Grammar.Derivation

namespace FeatureFilter.Grammar

variable {ρ : Type}

namespace ParseTree

theorem inductionOn {motive : ParseTree ρ → Prop} (t : ParseTree ρ)
    (token : ∀ (r : ρ) (s : Text.Span) (lexeme : List Char), motive (.token r s lexeme))
    (node : ∀ (r : ρ) (s : Text.Span) (children : List (ParseTree ρ)),
      (∀ t ∈ children, motive t) → motive (.node r s children)) : motive t :=
  @ParseTree.rec ρ motive (fun ts => ∀ t ∈ ts, motive t) token node
    (fun _ h => absurd h List.not_mem_nil) (fun _ _ ht hts => List.forall_mem_cons.2 ⟨ht, hts⟩) t

def children : ParseTree ρ → List (ParseTree ρ)
  | .token .. => []
  | .node _ _ ts => ts

mutual

def changed (place : Text.Span → Text.Span) (lexeme : ρ → List Char → List Char) :
    ParseTree ρ → ParseTree ρ
  | .token r s cs => .token r (place s) (lexeme r cs)
  | .node r s ts => .node r (place s) (changedEach place lexeme ts)

def changedEach (place : Text.Span → Text.Span) (lexeme : ρ → List Char → List Char) :
    List (ParseTree ρ) → List (ParseTree ρ)
  | [] => []
  | t :: ts => t.changed place lexeme :: changedEach place lexeme ts

end

theorem changedEach_append (ts us : List (ParseTree ρ)) : changedEach place lexeme (ts ++ us) =
    changedEach place lexeme ts ++ changedEach place lexeme us := by
  induction ts with
  | nil => rfl
  | cons t ts ih => exact congrArg (t.changed place lexeme :: ·) ih

/-- A tree or one of its parts, at any depth. -/
inductive Within (u : ParseTree ρ) : ParseTree ρ → Prop
  | self : Within u u
  | part : t ∈ ts → Within u t → Within u (.node r s ts)

end ParseTree

mutual

def ParseTree.unplaced : ParseTree ρ → ParseTree ρ
  | .token r _ lexeme => .token r .zero lexeme
  | .node r _ children => .node r .zero (unplacedEach children)

def ParseTree.unplacedEach : List (ParseTree ρ) → List (ParseTree ρ)
  | [] => []
  | t :: ts => t.unplaced :: unplacedEach ts

end

theorem ParseTree.unplacedEach_append (ts us : List (ParseTree ρ)) :
    unplacedEach (ts ++ us) = unplacedEach ts ++ unplacedEach us := by
  induction ts with
  | nil => rfl
  | cons t ts ih => exact congrArg (t.unplaced :: ·) ih

inductive Grows (g : RuleSet ρ) : Phrase ρ → List (ParseTree ρ) → Prop
  | nothing : Grows g .nothing []
  | endOfText : Grows g .endOfText []
  | mark : Grows g (.mark ws) []
  | token : g.define r = .token p → p.scan cs = some (lexeme, rest) →
    Grows g (.rule r) [.token r s lexeme]
  | node : g.define r = .phrase e → Grows g e ts → Grows g (.rule r) [.node r s ts]
  | seq : Grows g x ts → Grows g y us → Grows g (.seq x y) (ts ++ us)
  | choiceLeft : Grows g x ts → Grows g (.choice x y) ts
  | choiceRight : Grows g y ts → Grows g (.choice x y) ts
  | optional : Grows g x ts → Grows g (.optional x) ts
  | absent : Grows g (.optional x) []
  | many : Grows g x ts → Grows g (.many x) us → Grows g (.many x) (ts ++ us)
  | never : Grows g (.many x) []

def Phrase.rules : Phrase ρ → List ρ
  | .rule r => [r]
  | .seq x y | .choice x y => x.rules ++ y.rules
  | .optional x | .many x => x.rules
  | .nothing | .endOfText | .mark _ => []

/-- The phrase that a task is a part of. -/
def Task.whole : Task ρ → Phrase ρ
  | .phrase e => e
  | .again x => .many x

variable {g : RuleSet ρ}

theorem Derives.grows (h : Derives g t c o) : ∀ d ts, o = some (d, ts) → Grows g t.whole ts := by
  induction h with
  | nothing =>
    rintro d ts ⟨⟩
    exact .nothing
  | endOfText =>
    rintro d ts ⟨⟩
    exact .endOfText
  | mark =>
    rintro d ts ⟨⟩
    exact .mark
  | token hd hs =>
    rintro d ts ⟨⟩
    exact .token hd hs
  | node hd _ ih =>
    rintro d ts ⟨⟩
    exact .node hd (ih _ _ rfl)
  | seq _ _ ihx ihy =>
    rintro d ts ⟨⟩
    exact .seq (ihx _ _ rfl) (ihy _ _ rfl)
  | choiceLeft _ ih =>
    intro d ts ho
    exact .choiceLeft (ih d ts ho)
  | choiceRight _ _ _ ih =>
    intro d ts ho
    exact .choiceRight (ih d ts ho)
  | optional _ ih =>
    intro d ts ho
    exact .optional (ih d ts ho)
  | absent =>
    rintro d ts ⟨⟩
    exact .absent
  | many _ _ ihx ihm | again _ _ ihx ihm =>
    rintro d ts ⟨⟩
    exact .many (ihx _ _ rfl) (ihm _ _ rfl)
  | never | done =>
    rintro d ts ⟨⟩
    exact .never
  | notEnd | noMark | noToken | noNode | seqLeft | seqRight => nofun

namespace Grows

open ParseTree (Within)

/-- Every part of a tree is a tree of some rule. -/
theorem exists_of_within (h : Grows g e ts) (ht : t ∈ ts) (hu : Within u t) :
    ∃ r, Grows g (.rule r) [u] := by
  induction h generalizing t with
  | nothing | endOfText | mark | absent | never => cases ht
  | token hd hs =>
    cases List.mem_singleton.1 ht
    cases hu with
    | self => exact ⟨_, .token hd hs⟩
  | node hd hts ih =>
    cases List.mem_singleton.1 ht
    cases hu with
    | self => exact ⟨_, .node hd hts⟩
    | part hv hu => exact ih hv hu
  | seq _ _ ihx ihy | many _ _ ihx ihy =>
    rcases List.mem_append.1 ht with ht | ht
    · exact ihx ht hu
    · exact ihy ht hu
  | choiceLeft _ ih | choiceRight _ ih | optional _ ih => exact ih ht hu

theorem exists_mem_rules (h : Grows g e ts) (ht : t ∈ ts) :
    ∃ r ∈ e.rules, Grows g (.rule r) [t] := by
  induction h with
  | nothing | endOfText | mark | absent | never => cases ht
  | token hd hs =>
    cases List.mem_singleton.1 ht
    exact ⟨_, List.mem_singleton_self _, .token hd hs⟩
  | node hd hts =>
    cases List.mem_singleton.1 ht
    exact ⟨_, List.mem_singleton_self _, .node hd hts⟩
  | seq _ _ ihx ihy =>
    rcases List.mem_append.1 ht with ht | ht
    · obtain ⟨r, hr, hg⟩ := ihx ht
      exact ⟨r, List.mem_append_left _ hr, hg⟩
    · obtain ⟨r, hr, hg⟩ := ihy ht
      exact ⟨r, List.mem_append_right _ hr, hg⟩
  | many _ _ ihx ihm =>
    rcases List.mem_append.1 ht with ht | ht
    · exact ihx ht
    · exact ihm ht
  | choiceLeft _ ih =>
    obtain ⟨r, hr, hg⟩ := ih ht
    exact ⟨r, List.mem_append_left _ hr, hg⟩
  | choiceRight _ ih =>
    obtain ⟨r, hr, hg⟩ := ih ht
    exact ⟨r, List.mem_append_right _ hr, hg⟩
  | optional _ ih => exact ih ht

theorem exists_tree (h : Grows g (.rule r) ts) : ∃ t, ts = [t] := by
  cases h with
  | token | node => exact ⟨_, rfl⟩

theorem exists_token (h : Grows g (.rule r) ts) (hd : g.define r = .token p) :
    ∃ s lexeme cs rest, ts = [.token r s lexeme] ∧ p.scan cs = some (lexeme, rest) := by
  cases h with
  | token hd' hs =>
    cases hd.symm.trans hd'
    exact ⟨_, _, _, _, rfl, hs⟩
  | node hd' => cases hd.symm.trans hd'

theorem exists_node (h : Grows g (.rule r) ts) (hd : g.define r = .phrase e) :
    ∃ s us, ts = [.node r s us] ∧ Grows g e us := by
  cases h with
  | token hd' => cases hd.symm.trans hd'
  | node hd' he =>
    cases hd.symm.trans hd'
    exact ⟨_, _, rfl, he⟩

theorem exists_seq (h : Grows g (.seq x y) ts) :
    ∃ us vs, ts = us ++ vs ∧ Grows g x us ∧ Grows g y vs := by
  cases h with
  | seq hx hy => exact ⟨_, _, rfl, hx, hy⟩

end Grows
end FeatureFilter.Grammar
