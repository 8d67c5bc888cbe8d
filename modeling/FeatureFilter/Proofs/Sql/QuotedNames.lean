import FeatureFilter.Sql.Dialect

namespace FeatureFilter.Sql

open Text (double quote)

/-- Reads a name behind its opening quote: the name, and what stands behind the closing quote. Two
quotes are one quote of the name. -/
def readName : List Char → Option (List Char × List Char)
  | [] => none
  | '"' :: '"' :: cs => (readName cs).map fun (name, rest) => ('"' :: name, rest)
  | '"' :: cs => some ([], cs)
  | c :: cs => (readName cs).map fun (name, rest) => (c :: name, rest)

theorem eq_of_readName (h : readName cs = some (name, rest)) :
    cs = double '"' name ++ '"' :: rest := by
  fun_induction readName cs generalizing name with
  | case1 => cases h
  | case2 cs ih =>
    obtain ⟨⟨name', rest'⟩, hr, he⟩ := Option.map_eq_some_iff.1 h
    cases he
    rw [ih hr]
    rfl
  | case3 cs hcs =>
    cases h
    rfl
  | case4 c cs hcs hc ih =>
    obtain ⟨⟨name', rest'⟩, hr, he⟩ := Option.map_eq_some_iff.1 h
    cases he
    rw [ih hr, double, if_neg hc]
    rfl

theorem readName_length (h : readName cs = some (name, rest)) : rest.length < cs.length := by
  rw [eq_of_readName h, List.length_append, List.length_cons]
  omega

theorem readName_double (name : List Char) (h : rest.head? ≠ some '"') :
    readName (double '"' name ++ '"' :: rest) = some (name, rest) := by
  induction name with
  | nil =>
    cases rest with
    | nil => rfl
    | cons c rest =>
      have hc : c ≠ '"' := fun hc => h (hc ▸ rfl)
      simp [double, readName, hc]
  | cons c name ih =>
    by_cases hc : c = '"'
    · simp [double, hc, readName, ih]
    · simp [double, hc, readName, ih]

/-- Reads a chain: quoted names with points between them, as many as there are. -/
def readChain : List Char → Option (List (List Char) × List Char)
  | '"' :: cs =>
    match _h : readName cs with
    | none => none
    | some (name, '.' :: '"' :: more) =>
      (readChain ('"' :: more)).map fun (names, rest) => (name :: names, rest)
    | some (name, rest) => some ([name], rest)
  | _ => none
termination_by cs => cs.length
decreasing_by
  have hlt := readName_length _h
  simp only [List.length_cons] at hlt ⊢
  omega

def chainText (names : List (List Char)) : List Char :=
  List.intercalate ['.'] (names.map (quote '"'))

theorem chainText_singleton (name : List Char) : chainText [name] = quote '"' name :=
  List.intercalate_singleton

theorem chainText_cons (name : List Char) (h : names ≠ []) :
    chainText (name :: names) = quote '"' name ++ '.' :: chainText names := by
  have hne : names.map (quote '"') ≠ [] := fun he => h (List.map_eq_nil_iff.1 he)
  rw [chainText, List.map_cons, List.intercalate_cons_of_ne_nil hne, List.append_assoc]
  rfl

theorem quote_append (name rest : List Char) :
    quote '"' name ++ rest = '"' :: (double '"' name ++ '"' :: rest) := by
  simp only [quote, List.cons_append, List.append_assoc, List.nil_append]

theorem ne_nil_of_readChain (h : readChain cs = some (names, rest)) : names ≠ [] := by
  fun_induction readChain cs generalizing names with
  | case1 => cases h
  | case2 cs name more hn ih =>
    obtain ⟨⟨names', rest'⟩, _, he⟩ := Option.map_eq_some_iff.1 h
    cases he
    exact List.cons_ne_nil _ _
  | case3 cs name rest hne hn =>
    cases h
    exact List.cons_ne_nil _ _
  | case4 => cases h

theorem eq_of_readChain (h : readChain cs = some (names, rest)) : cs = chainText names ++ rest := by
  fun_induction readChain cs generalizing names with
  | case1 => cases h
  | case2 cs name more hn ih =>
    obtain ⟨⟨names', rest'⟩, hr, he⟩ := Option.map_eq_some_iff.1 h
    cases he
    rw [chainText_cons _ (ne_nil_of_readChain hr), List.append_assoc, List.cons_append, ← ih hr,
      quote_append, eq_of_readName hn]
  | case3 cs name rest hne hn =>
    cases h
    rw [chainText_singleton, quote_append, eq_of_readName hn]
  | case4 => cases h

theorem exists_chainText_eq_cons (h : names ≠ []) : ∃ cs, chainText names = '"' :: cs := by
  obtain ⟨name, names, rfl⟩ := List.exists_cons_of_ne_nil h
  by_cases hn : names = []
  · subst hn
    exact ⟨_, chainText_singleton name⟩
  · exact ⟨_, (chainText_cons name hn).trans (quote_append _ _)⟩

theorem readChain_length (h : readChain cs = some (names, rest)) : rest.length < cs.length := by
  obtain ⟨cs', he⟩ := exists_chainText_eq_cons (ne_nil_of_readChain h)
  rw [eq_of_readChain h, he, List.length_append, List.length_cons]
  omega

theorem readChain_more (h : readName cs = some (name, '.' :: '"' :: more)) :
    readChain ('"' :: cs) =
      (readChain ('"' :: more)).map fun (names, rest) => (name :: names, rest) := by
  rw [readChain]
  split
  · rename_i hn
    cases h.symm.trans hn
  · rename_i hn
    cases h.symm.trans hn
    rfl
  · rename_i hne hn
    cases h.symm.trans hn
    exact absurd rfl (hne _)

theorem readChain_last (h : readName cs = some (name, rest)) (hp : rest.head? ≠ some '.') :
    readChain ('"' :: cs) = some ([name], rest) := by
  rw [readChain]
  split
  · rename_i hn
    cases h.symm.trans hn
  · rename_i hn
    cases h.symm.trans hn
    exact absurd rfl hp
  · rename_i hn
    cases h.symm.trans hn
    rfl

/-- A chain is read back from its text. What follows must not continue it. -/
theorem readChain_chainText (hne : names ≠ []) (hq : rest.head? ≠ some '"')
    (hp : rest.head? ≠ some '.') : readChain (chainText names ++ rest) = some (names, rest) := by
  induction names with
  | nil => exact absurd rfl hne
  | cons name names ih =>
    by_cases hn : names = []
    · rw [hn, chainText_singleton, quote_append]
      exact readChain_last (readName_double name hq) hp
    · obtain ⟨cs, hcs⟩ := exists_chainText_eq_cons hn
      have ih := ih hn
      rw [hcs, List.cons_append] at ih
      have hname : readName (double '"' name ++ '"' :: '.' :: '"' :: (cs ++ rest)) =
          some (name, '.' :: '"' :: (cs ++ rest)) := readName_double name nofun
      rw [chainText_cons name hn, List.append_assoc, quote_append, hcs, List.cons_append,
        List.cons_append, readChain_more hname, ih]
      rfl

theorem splitAt_ne_nil (sep : Char) (cs : List Char) : splitAt sep cs ≠ [] := by
  fun_cases splitAt sep cs <;> exact List.cons_ne_nil _ _

theorem splitAt_eq_splitOn (sep : Char) (cs : List Char) : splitAt sep cs = cs.splitOn sep := by
  fun_induction splitAt sep cs with
  | case1 => rfl
  | case2 cs ih => rw [List.splitOn_cons_eq_if_modifyHead, if_pos (beq_self_eq_true sep), ih]
  | case3 c cs hc part parts hs ih =>
    rw [List.splitOn_cons_eq_if_modifyHead, if_neg (mt eq_of_beq hc), ← ih, hs]
    rfl
  | case4 c cs hc hs ih => exact absurd hs (splitAt_ne_nil sep cs)

theorem quoteColumn_toList (column : String) :
    (quoteColumn column).toList = chainText (splitAt '.' column.toList) := by
  have hpart (part : List Char) :
      (String.toList ∘ fun part => Dialect.postgres.quoteIdentifier (.ofList part)) part =
        quote '"' part := by
    simp only [Function.comp_apply, Dialect.postgres, quoteIdentifier, String.toList_ofList]
  rw [quoteColumn, Dialect.quoteColumn, String.toList_intercalate, List.map_map, chainText,
    List.map_congr_left fun part _ => hpart part]
  rfl

theorem readChain_quoteColumn (column : String) (hq : rest.head? ≠ some '"')
    (hp : rest.head? ≠ some '.') :
    readChain ((quoteColumn column).toList ++ rest) = some (column.toList.splitOn '.', rest) := by
  rw [quoteColumn_toList, readChain_chainText (splitAt_ne_nil _ _) hq hp, splitAt_eq_splitOn]

theorem eq_of_quoteColumn_append (hc : cs.head? ≠ some '"' ∧ cs.head? ≠ some '.')
    (hd : ds.head? ≠ some '"' ∧ ds.head? ≠ some '.')
    (h : (quoteColumn a).toList ++ cs = (quoteColumn b).toList ++ ds) : a = b ∧ cs = ds := by
  have hr := readChain_quoteColumn a hc.1 hc.2
  rw [h, readChain_quoteColumn b hd.1 hd.2] at hr
  obtain ⟨hparts, hrest⟩ := Prod.mk.inj (Option.some.inj hr)
  have hjoin := congrArg (List.intercalate ['.']) hparts
  rw [List.intercalate_splitOn, List.intercalate_splitOn] at hjoin
  exact ⟨String.toList_inj.1 hjoin.symm, hrest.symm⟩

theorem quoteColumn_injective : Function.Injective quoteColumn := by
  intro a b h
  have hends : ([] : List Char).head? ≠ some '"' ∧ ([] : List Char).head? ≠ some '.' := by decide
  exact (eq_of_quoteColumn_append hends hends (by rw [h])).1

/-- The parts of a column are read back from its quoted form, and reading stops where that ends. No
other column with something else behind it has the same text, so whatever characters a column is
made of, none of them ends its quotes. -/
theorem readChain_quoteColumn_append (column rest : String)
    (hq : rest.toList.head? ≠ some '"') (hp : rest.toList.head? ≠ some '.') :
    readChain (quoteColumn column ++ rest).toList =
      some (column.toList.splitOn '.', rest.toList) ∧
    (∀ other behind : String,
      behind.toList.head? ≠ some '"' → behind.toList.head? ≠ some '.' →
        quoteColumn other ++ behind = quoteColumn column ++ rest →
          other = column ∧ behind = rest) ∧
    Function.Injective quoteColumn := by
  refine ⟨?_, ?_, quoteColumn_injective⟩
  · rw [String.toList_append]
    exact readChain_quoteColumn column hq hp
  · intro other behind hq' hp' h
    have htext := congrArg String.toList h
    rw [String.toList_append, String.toList_append] at htext
    obtain ⟨hcolumn, hrest⟩ := eq_of_quoteColumn_append ⟨hq', hp'⟩ ⟨hq, hp⟩ htext
    exact ⟨hcolumn, String.toList_inj.1 hrest⟩

/-- Parts that end in a quote, are one or are empty, in front of a comparison. -/
theorem readChain_quoteColumn_append_quotes :
    quoteColumn "l\".\"." = "\"l\"\"\".\"\"\"\".\"\"" ∧
    readChain ("\"l\"\"\".\"\"\"\".\"\"" ++ " = $1").toList =
      some ([['l', '"'], ['"'], []], " = $1".toList) :=
  ⟨rfl, (readChain_quoteColumn_append "l\".\"." " = $1" (by decide) (by decide)).1⟩

end FeatureFilter.Sql
