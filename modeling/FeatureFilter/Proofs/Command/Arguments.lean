import FeatureFilter.Command.Usage
import FeatureFilter.Proofs.Filter.Numerals

namespace FeatureFilter.Command

def optionArg (name value : String) : String :=
  .ofList ('-' :: '-' :: (name.toList ++ '=' :: value.toList))

def jsonArgs (json : Bool) : List String := if json then ["--json"] else []

def Target.toArgs (t : Target) : List String :=
  [optionArg "config" t.config, optionArg "collection" t.collection, optionArg "filter" t.filter,
    optionArg "lang" t.language.name]

/-- The arguments that ask for an action, with all options given. -/
def Action.toArgs : Action → List String
  | .compile t paramOffset json =>
    "compile" :: (t.toArgs ++ optionArg "param-offset" (toString paramOffset) :: jsonArgs json)
  | .validate t => "validate" :: t.toArgs
  | .ast filter language => ["ast", optionArg "filter" filter, optionArg "lang" language.name]
  | .collections config json => "collections" :: optionArg "config" config :: jsonArgs json

def Action.InRange : Action → Prop
  | .compile _ paramOffset _ => paramOffset < Nat.pow 2 64
  | _ => True

theorem splitOption_append {cs : List Char} (h : '=' ∉ cs) (value : List Char) :
    splitOption (cs ++ '=' :: value) = (.ofList cs, some (.ofList value)) := by
  have hname : ∀ c ∈ cs, (c != '=') = true := by
    intro c hc
    apply bne_iff_ne.2
    intro he
    subst he
    exact h hc
  have htake : (cs ++ '=' :: value).takeWhile (· != '=') = cs := by
    rw [List.takeWhile_append_of_pos hname, List.takeWhile_cons_of_neg (by decide), List.append_nil]
  have hdrop : (cs ++ '=' :: value).dropWhile (· != '=') = '=' :: value := by
    rw [List.dropWhile_append_of_pos hname, List.dropWhile_cons_of_neg (by decide)]
  simp only [splitOption, htake, hdrop]

theorem collect_option {accepted : Accepted} {given : Given} {name : String}
    (hname : '=' ∉ name.toList)
    (haccepted : accepted.flags.contains name = false ∧ accepted.options.contains name = true)
    (hnew : given.option? name = none) (value : String) (args : List String) :
    collect accepted (optionArg name value :: args) given =
      collect accepted args ⟨(name, value) :: given.options, given.flags⟩ := by
  have hsplit : splitOption (name.toList ++ '=' :: value.toList) = (name, some value) := by
    rw [splitOption_append hname, String.ofList_toList, String.ofList_toList]
  have hlist : (optionArg name value).toList = '-' :: '-' :: (name.toList ++ '=' :: value.toList) :=
    String.toList_ofList
  rw [collect, hlist]
  split
  · rename_i heq
    simp at heq
  · rename_i heq
    cases heq
    simp only [hsplit, haccepted, hnew, Bool.false_eq_true, if_false, Option.isNone_none,
      Bool.and_self, if_true]
  · rename_i hother
    exact absurd rfl (hother _)

theorem collect_json (names : List String) (options : List (String × String)) (json : Bool) :
    collect ⟨names, ["json"]⟩ (jsonArgs json) ⟨options, []⟩ =
      some ⟨options, if json then ["json"] else []⟩ := by
  have hlist : "--json".toList = ['-', '-', 'j', 's', 'o', 'n'] := by decide
  have hsplit : splitOption ['j', 's', 'o', 'n'] = ("json", none) := by decide
  cases json with
  | true =>
    simp only [jsonArgs, if_true, collect, hlist, hsplit]
    rfl
  | false => rfl

theorem flag_json (options : List (String × String)) (json : Bool) :
    Given.flag ⟨options, if json then ["json"] else []⟩ "json" = json := by
  cases json with
  | true | false => rfl

theorem readUnsigned?_toString (h : n < Nat.pow 2 64) : readUnsigned? (toString n) = some n := by
  have hlist : (toString n).toList = Nat.toDigits 10 n := by
    rw [Nat.toString_eq_repr, Nat.toList_repr]
  have hall := Literal.all_isDigit_toDigits n
  have hvalue := Literal.digitsValue_toDigits n
  cases hdigits : Nat.toDigits 10 n with
  | nil => exact absurd hdigits Nat.toDigits_ne_nil
  | cons d ds =>
    rw [hdigits] at hlist hall hvalue
    have hd : d ≠ '+' := by
      intro he
      subst he
      cases (Bool.and_eq_true_iff.1 (List.all_cons.symm.trans hall)).1
    simp only [readUnsigned?, hlist]
    split
    · rename_i heq
      cases heq
      exact absurd rfl hd
    · simp only [hall, hvalue, h, List.isEmpty_cons, Bool.not_false, Bool.and_self, decide_true,
        if_true]

theorem ofString_name (language : Language) : Language.ofString language.name = .ok language := by
  cases language with
  | text | json => rfl

/-- The options of a target as they are collected, the last one first. -/
def Target.options (t : Target) : List (String × String) :=
  [("lang", t.language.name), ("filter", t.filter), ("collection", t.collection),
    ("config", t.config)]

theorem collect_target {accepted : Accepted}
    (h : ∀ name ∈ targetOptions,
      accepted.flags.contains name = false ∧ accepted.options.contains name = true)
    (t : Target) (args : List String) :
    collect accepted (t.toArgs ++ args) .nothing = collect accepted args ⟨t.options, []⟩ := by
  simp only [targetOptions, List.forall_mem_cons] at h
  obtain ⟨hconfig, hcollection, hfilter, hlang, -⟩ := h
  rw [Target.toArgs, List.cons_append, collect_option (by decide) hconfig rfl, List.cons_append,
    collect_option (by decide) hcollection rfl, List.cons_append,
    collect_option (by decide) hfilter rfl, List.cons_append,
    collect_option (by decide) hlang rfl]
  rfl

theorem target?_eq_some (given : Given) (t : Target)
    (hconfig : given.option? "config" = some t.config)
    (hcollection : given.option? "collection" = some t.collection)
    (hfilter : given.option? "filter" = some t.filter)
    (hlang : given.option? "lang" = some t.language.name) : given.target? = some t := by
  simp only [Given.target?, Given.language?, hconfig, hcollection, hfilter, hlang, ofString_name,
    Except.toOption, Option.bind_eq_bind, Option.bind_some]

theorem Request.ofArgs_of_action {name : String} (h : action? name args = some a)
    (hlong : name ≠ "--version") (hshort : name.toList.take 2 ≠ ['-', 'V']) :
    Request.ofArgs (name :: args) = .action a := by
  rw [Request.ofArgs]
  · rw [if_neg hshort, h]
  · exact hlong

/-- The arguments of an action ask for it. -/
theorem Request.ofArgs_toArgs (a : Action) (h : a.InRange) :
    Request.ofArgs a.toArgs = .action a := by
  cases a with
  | compile t paramOffset json =>
    apply ofArgs_of_action _ (by decide) (by decide)
    have hoffset : Given.paramOffset? ⟨("param-offset", toString paramOffset) :: t.options,
        if json then ["json"] else []⟩ = some paramOffset := readUnsigned?_toString h
    have htarget := target?_eq_some ⟨("param-offset", toString paramOffset) :: t.options,
      if json then ["json"] else []⟩ t rfl rfl rfl rfl
    rw [action?, collect_target (by decide), collect_option (by decide) (by decide) rfl,
      collect_json]
    simp only [Option.bind_eq_bind, Option.bind_some, htarget, hoffset, flag_json]
  | validate t =>
    apply ofArgs_of_action _ (by decide) (by decide)
    have hcollect : collect ⟨targetOptions, []⟩ (t.toArgs ++ []) .nothing = _ :=
      collect_target (by decide) t []
    rw [List.append_nil] at hcollect
    rw [action?, hcollect]
    simp only [collect, Option.bind_eq_bind, Option.bind_some,
      target?_eq_some ⟨t.options, []⟩ t rfl rfl rfl rfl]
  | ast filter language =>
    apply ofArgs_of_action _ (by decide) (by decide)
    have hlanguage : Given.language? ⟨[("lang", language.name), ("filter", filter)], []⟩ =
        some language := congrArg Except.toOption (ofString_name language)
    have hfilter : Given.option? ⟨[("lang", language.name), ("filter", filter)], []⟩ "filter" =
        some filter := rfl
    rw [action?, collect_option (by decide) (by decide) rfl,
      collect_option (by decide) (by decide) rfl, collect]
    simp only [Given.nothing, Option.bind_eq_bind, Option.bind_some, hfilter, hlanguage]
  | collections config json =>
    apply ofArgs_of_action _ (by decide) (by decide)
    have hconfig : Given.option? ⟨[("config", config)], if json then ["json"] else []⟩ "config" =
        some config := rfl
    rw [action?, collect_option (by decide) (by decide) rfl, Given.nothing, collect_json]
    simp only [Option.bind_eq_bind, Option.bind_some, hconfig, flag_json]

end FeatureFilter.Command
