import FeatureFilter.Command.Run
import FeatureFilter.Proofs.Collection.Registered
import FeatureFilter.Proofs.Command.Arguments
import FeatureFilter.Proofs.Sql.Acceptance
import FeatureFilter.Proofs.Sql.Placeholders

namespace FeatureFilter.Command

open Sql (Fragment Rejection Value placeholder placeholders numbered)

/-- The line of a parameter, behind the placeholder that stands for it. -/
def paramLine (label : List Char) (v : Value) : String :=
  "  " ++ padRight 7 (.ofList label) ++ " " ++ v.write ++ " (" ++ v.typeName ++ ")\n"

theorem padRight_dollar (width : Nat) (s : String) :
    padRight (width + 1) ("$" ++ s) = "$" ++ padRight width s := by
  have hlen : width + 1 - ("$" ++ s).toList.length = width - s.toList.length := by
    rw [String.toList_append, List.length_append, show "$".toList.length = 1 from rfl]
    omega
  rw [padRight, padRight, hlen, String.append_assoc]

theorem paramLine_placeholder (k : Nat) (v : Value) :
    paramLine (placeholder k).toList v =
      "  $" ++ padRight 6 (toString (k + 1)) ++ " " ++ v.write ++ " (" ++ v.typeName ++ ")\n" := by
  have hmark : "  $" = "  " ++ "$" := by decide
  rw [paramLine, String.ofList_toList, placeholder, padRight_dollar, ← String.append_assoc, ← hmark]

theorem paramLines_eq (k index : Nat) (vs : List Value) :
    paramLines k index vs =
      String.join (List.zipWith paramLine (numbered (k + index) vs.length) vs) := by
  induction vs generalizing index with
  | nil => rfl
  | cons v vs ih =>
    have hnumbered : numbered (k + index) (vs.length + 1) =
        (placeholder (k + index)).toList :: numbered (k + (index + 1)) vs.length := by
      rw [Nat.add_comm vs.length, Sql.numbered_add, Sql.numbered_one]
      rfl
    rw [paramLines, List.length_cons, hnumbered, List.zipWith_cons_cons, String.join_cons,
      paramLine_placeholder, ih]

variable {language : Language} {paramOffset : Nat}

theorem placeholders_of_compile (h : compile filter c { language, paramOffset } = .ok f) :
    placeholders false f.sql.toList = numbered paramOffset f.params.length := by
  rw [compile] at h
  cases hread : Expr.read language filter with
  | error e =>
    rw [hread] at h
    cases h
  | ok e =>
    rw [hread] at h
    obtain ⟨ms, hms, hsql, hlen⟩ := compileExpr_marks h
    rw [hsql, hlen]
    exact (Sql.shows_text (Sql.Outline.spaced_of_eq hms)).shown

theorem fragmentText_eq (h : compile filter c { language, paramOffset } = .ok f)
    (hparams : f.params ≠ []) :
    fragmentText f paramOffset = padRight 8 "SQL" ++ " " ++ f.sql ++ "\n" ++ ("Params\n" ++
      String.join (List.zipWith paramLine (placeholders false f.sql.toList) f.params)) := by
  have hempty : f.params.isEmpty = false := List.isEmpty_eq_false_iff.2 hparams
  rw [fragmentText, hempty, if_neg Bool.false_ne_true, paramLines_eq, placeholders_of_compile h,
    Nat.add_zero]

/-- Why a filter is rejected does not depend on the parameters that are bound around it. -/
theorem compile_error_iff (filter : String) (c : Collection) (language : Language) (k k' : Nat) :
    compile filter c { language, paramOffset := k } = .error r ↔
      compile filter c { language, paramOffset := k' } = .error r := by
  simp only [compile]
  cases Expr.read language filter with
  | error e => exact Iff.rfl
  | ok e =>
    rw [compileExpr_error_iff, compileExpr_error_iff]
    exact Iff.rfl

theorem run_unfound (h : findCollection files t = .error e) (paramOffset : Nat) (json : Bool) :
    runCompile files t paramOffset json = .failed "" e ∧
      runValidate files t = runCompile files t paramOffset json := by
  simp only [runCompile, runValidate, h, and_self]

theorem run_rejected (h : findCollection files t = .ok c)
    (hr : compile t.filter c { language := t.language, paramOffset } = .error r) (json : Bool) :
    runCompile files t paramOffset json = .failed "" (.invalidFilter r) ∧
      runValidate files t = .failed (r.message ++ "\n") .rejected := by
  have hr' := (compile_error_iff t.filter c t.language paramOffset 0).1 hr
  simp only [runCompile, runValidate, validate, h, hr, hr', and_self]

theorem run_accepted (h : findCollection files t = .ok c)
    (hf : compile t.filter c { language := t.language, paramOffset } = .ok f) (json : Bool) :
    runCompile files t paramOffset json =
        .done (if json then f.toJson.pretty ++ "\n" else fragmentText f paramOffset) ∧
      runValidate files t = .done "ok\n" := by
  cases hf' : compile t.filter c { language := t.language } with
  | error r =>
    have hr := (compile_error_iff t.filter c t.language 0 paramOffset).1 hf'
    cases hf.symm.trans hr
  | ok f' => simp only [runCompile, runValidate, validate, h, hf, hf', and_self]

/-- The file of a target holds its collection. -/
def Finds (files : Files) (t : Target) (c : Collection) : Prop :=
  ∃ text r, files t.config = some text ∧ Registry.ofJsonText text = .ok r ∧
    r.get? t.collection = some c

theorem findCollection_of_finds (h : Finds files t c) : findCollection files t = .ok c := by
  obtain ⟨text, r, htext, hload, hget⟩ := h
  simp only [findCollection, loadRegistry, htext, hload, Except.mapError, bind, Except.bind, hget]

/-- How the outcomes of compiling and of validating one target go together. -/
structure Agree (files : Files) (t : Target) (paramOffset : Nat) (json : Bool)
    (compiled validated : Outcome) : Prop where
  exit : compiled.exitCode = 0 ↔ validated.exitCode = 0
  ok : validated.exitCode = 0 → validated.stdout = "ok\n"
  unread : files t.config = none →
    compiled = .failed "" (.configFileRead t.config) ∧ validated = compiled
  unloaded : ∀ text e, files t.config = some text → Registry.ofJsonText text = .error e →
    compiled = .failed "" (.config e) ∧ validated = compiled
  unknown : ∀ text r, files t.config = some text → Registry.ofJsonText text = .ok r →
    r.get? t.collection = none →
    compiled = .failed "" (.unknownCollection t.collection) ∧ validated = compiled
  rejected : ∀ c r, Finds files t c →
    compile t.filter c { language := t.language, paramOffset } = .error r →
    compiled = .failed "" (.invalidFilter r) ∧ validated = .failed (r.message ++ "\n") .rejected
  accepted : ∀ c f, Finds files t c →
    compile t.filter c { language := t.language, paramOffset } = .ok f → compiled.exitCode = 0
  /-- Each printed parameter stands behind its placeholder in the predicate. -/
  numbered : ∀ c f, Finds files t c →
    compile t.filter c { language := t.language, paramOffset } = .ok f → json = false →
    f.params ≠ [] →
    placeholders false f.sql.toList = numbered paramOffset f.params.length ∧
    compiled = .done (padRight 8 "SQL" ++ " " ++ f.sql ++ "\n" ++ ("Params\n" ++
      String.join (List.zipWith paramLine (placeholders false f.sql.toList) f.params)))

theorem run_cases (files : Files) (t : Target) (paramOffset : Nat) (json : Bool) :
    (∃ stdout stdout' e e', runCompile files t paramOffset json = .failed stdout e ∧
      runValidate files t = .failed stdout' e') ∨
    ∃ stdout, runCompile files t paramOffset json = .done stdout ∧
      runValidate files t = .done "ok\n" := by
  cases hfind : findCollection files t with
  | error e =>
    obtain ⟨hcompile, hvalidate⟩ := run_unfound hfind paramOffset json
    exact .inl ⟨_, _, _, _, hcompile, hvalidate.trans hcompile⟩
  | ok c =>
    cases hf : compile t.filter c { language := t.language, paramOffset } with
    | error r => exact .inl ⟨_, _, _, _, run_rejected hfind hf json⟩
    | ok f => exact .inr ⟨_, run_accepted hfind hf json⟩

theorem run_agree (files : Files) (t : Target) (paramOffset : Nat) (json : Bool) :
    Agree files t paramOffset json (runCompile files t paramOffset json) (runValidate files t) where
  exit := by
    rcases run_cases files t paramOffset json with
      ⟨stdout, stdout', e, e', hcompile, hvalidate⟩ | ⟨stdout, hcompile, hvalidate⟩
    · rw [hcompile, hvalidate, Outcome.exitCode, Outcome.exitCode]
    · rw [hcompile, hvalidate, Outcome.exitCode, Outcome.exitCode]
  ok := by
    intro hexit
    rcases run_cases files t paramOffset json with
      ⟨stdout, stdout', e, e', hcompile, hvalidate⟩ | ⟨stdout, hcompile, hvalidate⟩
    · rw [hvalidate, Outcome.exitCode] at hexit
      exact absurd hexit (by decide)
    · rw [hvalidate, Outcome.stdout]
  unread := by
    intro hread
    apply run_unfound
    simp only [findCollection, loadRegistry, hread, bind, Except.bind]
  unloaded := by
    intro text e hread hload
    apply run_unfound
    simp only [findCollection, loadRegistry, hread, hload, Except.mapError, bind, Except.bind]
  unknown := by
    intro text r hread hload hget
    apply run_unfound
    simp only [findCollection, loadRegistry, hread, hload, Except.mapError, bind, Except.bind, hget]
  rejected := by
    intro c r hfinds hr
    exact run_rejected (findCollection_of_finds hfinds) hr json
  accepted := by
    intro c f hfinds hf
    rw [(run_accepted (findCollection_of_finds hfinds) hf json).1, Outcome.exitCode]
  numbered := by
    intro c f hfinds hf hjson hparams
    obtain ⟨hcompile, -⟩ := run_accepted (findCollection_of_finds hfinds) hf json
    subst hjson
    rw [hcompile, if_neg Bool.false_ne_true, fragmentText_eq hf hparams]
    exact ⟨placeholders_of_compile hf, rfl⟩

/-- Whatever the files, the target and the options are, there are arguments that ask to compile and
to validate, and whatever arguments do, the outcomes agree. -/
theorem runArgs_agree (files : Files) (t : Target) (json : Bool) (h : k < Nat.pow 2 64) :
    (∃ args args', Request.ofArgs args = .action (.compile t k json) ∧
      Request.ofArgs args' = .action (.validate t)) ∧
    ∀ args args', Request.ofArgs args = .action (.compile t k json) →
      Request.ofArgs args' = .action (.validate t) →
      Agree files t k json (runArgs files args) (runArgs files args') := by
  constructor
  · exact ⟨_, _, Request.ofArgs_toArgs (.compile t k json) h,
      Request.ofArgs_toArgs (.validate t) trivial⟩
  · intro args args' hcompile hvalidate
    rw [runArgs, runArgs, hcompile, hvalidate]
    exact run_agree files t k json

/-- A filter with one value, behind four parameters that are bound around it. -/
theorem runArgs_agree_lakes :
    let files : Files := fun _ => some (collectionsDocument [lakes "lake_name"])
    let t : Target := ⟨"lakes.json", "lakes", "name = 'Tahoe'", .text⟩
    let compiled := runArgs files (Action.compile t 4 false).toArgs
    let validated := runArgs files (Action.validate t).toArgs
    compiled.stdout = "SQL      (\"lake_name\" = $5)\nParams\n  $5      Tahoe (text)\n" ∧
      validated.stdout = "ok\n" ∧ Agree files t 4 false compiled validated := by
  intro files t compiled validated
  have hbound : 4 < Nat.pow 2 64 := by decide
  have hagree := (runArgs_agree files t false hbound).2 _ _
    (Request.ofArgs_toArgs (.compile t 4 false) hbound)
    (Request.ofArgs_toArgs (.validate t) trivial)
  have hload : Registry.ofJsonText (collectionsDocument [lakes "lake_name"]) =
      .ok ⟨Dictionary.empty.insert "lakes" (lakes "lake_name")⟩ :=
    Registry.ofJsonText_eq (collectionsOfJsonText_document _)
  have hfinds : Finds files t (lakes "lake_name") := ⟨_, _, rfl, hload, rfl⟩
  have hcompile :
      compile t.filter (lakes "lake_name") { language := t.language, paramOffset := 4 } =
        .ok ⟨"(\"lake_name\" = $5)", [.text "Tahoe"]⟩ := by
    have hparts : (compile t.filter (lakes "lake_name")
        { language := t.language, paramOffset := 4 }).toOption.map (fun f => (f.sql, f.params)) =
          some ("(\"lake_name\" = $5)", [.text "Tahoe"]) := by
      decide +kernel
    cases hf : compile t.filter (lakes "lake_name")
        { language := t.language, paramOffset := 4 } with
    | error r =>
      rw [hf] at hparts
      cases hparts
    | ok f =>
      rw [hf] at hparts
      cases f
      cases hparts
      rfl
  obtain ⟨-, hprinted⟩ := hagree.numbered _ _ hfinds hcompile rfl (List.cons_ne_nil _ _)
  have hexit := hagree.accepted _ _ hfinds hcompile
  have hstdout := congrArg Outcome.stdout hprinted
  refine ⟨hstdout.trans ?_, hagree.ok (hagree.exit.1 hexit), hagree⟩
  decide +kernel

end FeatureFilter.Command
