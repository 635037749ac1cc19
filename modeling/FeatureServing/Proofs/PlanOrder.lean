import Mathlib.Data.List.Nodup
import Mathlib.Data.List.Perm.Basic
import FeatureServing.Proofs.JoinPlan
import FeatureServing.Proofs.Rendering

/-!
# The order of a join plan

Metadata may list the statements of a plan in any order, and the parameters of each statement too:

* `PreparedStatement.Redeclared`, `PreparedStatement.Rearranged` : what another order is;
* `PreparedStatement.sortedParameters_eq_of_perm` : distinct indices have one ascending order;
* `Lookup.single_redeclared`, `Lookup.batch_redeclared` : a statement and its lookup;
* `Registry.compileAll_rearranged` : a list of statements and its lookups;
* `KeyIndex.ofKeys_derived_perm` : the index of the keys that are made from the statements;
* `Registry.compile_of_rearranged` : the registry, and the index of a plan that compiles.

An error may depend on the order, as the first one is reported.
-/

namespace FeatureServing

namespace PreparedStatement

/-- The statement with its parameters declared in another order. -/
def Redeclared (s s' : PreparedStatement) : Prop :=
  ∃ ps : List Parameter, ps.Perm s.parameters ∧ s' = { s with parameters := ps }

/-- The statements in another order, each with its parameters declared in another order. -/
def Rearranged (ss ss' : List PreparedStatement) : Prop :=
  ∃ mid : List PreparedStatement, ss.Perm mid ∧ List.Forall₂ Redeclared mid ss'

/-! ## Statements -/

theorem sortedParameters_eq_of_perm {s s' : PreparedStatement}
    (h : s'.parameters.Perm s.parameters) (hd : (s.parameters.map (·.index)).Nodup) :
    s'.sortedParameters = s.sortedParameters := by
  have hperm : s'.sortedParameters.Perm s.sortedParameters :=
    (s'.sortedParameters_perm.trans h).trans s.sortedParameters_perm.symm
  refine List.Perm.eq_of_pairwise (fun p q hp hq hpq hqp => ?_) s'.pairwise_le_sortedParameters
    s.pairwise_le_sortedParameters hperm
  -- two parameters of the statement that have the same index are one
  have hp' : p ∈ s.parameters := s.sortedParameters_perm.mem_iff.1 (hperm.mem_iff.1 hp)
  have hq' : q ∈ s.parameters := s.sortedParameters_perm.mem_iff.1 hq
  exact List.inj_on_of_nodup_map hd hp' hq' (UInt64.le_antisymm hpq hqp)

theorem validate_redeclared {s s' : PreparedStatement} (h : Redeclared s s') :
    s'.validate = .ok () ↔ s.validate = .ok () := by
  obtain ⟨ps, hps, rfl⟩ := h
  rw [validate_ok_iff, validate_ok_iff, (hps.map _).nodup_iff]

theorem primaryKeyNames_redeclared {s s' : PreparedStatement} (h : Redeclared s s')
    (hv : s.validate = .ok ()) : s'.primaryKeyNames = s.primaryKeyNames := by
  obtain ⟨ps, hps, rfl⟩ := h
  rw [primaryKeyNames, primaryKeyNames, sortedParameters_eq_of_perm hps (validate_ok_iff.1 hv).1]

theorem rearranged_retained {ss ss' : List PreparedStatement} (h : Rearranged ss ss')
    (skip : SortedSet GroupId) : Rearranged (retained skip ss) (retained skip ss') := by
  obtain ⟨mid, hperm, hall⟩ := h
  refine ⟨retained skip mid, hperm.filter _, List.rel_filter (fun s s' hs => ?_) hall⟩
  obtain ⟨ps, -, rfl⟩ := hs
  exact Iff.rfl

end PreparedStatement

open PreparedStatement (Redeclared Rearranged)

/-! ## Lookups -/

namespace Lookup

theorem single_redeclared {s s' : PreparedStatement} (h : Redeclared s s') (l : Lookup) :
    single s' = .ok l ↔ single s = .ok l := by
  rw [single_ok_iff, single_ok_iff, PreparedStatement.validate_redeclared h]
  refine and_congr_right fun hv => ?_
  rw [PreparedStatement.primaryKeyNames_redeclared h hv]
  obtain ⟨ps, -, rfl⟩ := h
  rfl

theorem batch_redeclared {s s' : PreparedStatement} (h : Redeclared s s') (l : Lookup) :
    batch s' = .ok l ↔ batch s = .ok l := by
  rw [batch_ok_iff, batch_ok_iff, PreparedStatement.validate_redeclared h]
  obtain ⟨ps, -, rfl⟩ := h
  rfl

end Lookup

/-! ## Lists of statements -/

theorem statementOf?_eq_some_iff {ss : List PreparedStatement}
    (hd : (ss.map (·.position)).Nodup) {j : Position} {s : PreparedStatement} :
    statementOf? ss j = some s ↔ s ∈ ss ∧ s.position = j := by
  constructor
  · exact statementOf?_eq_some
  · rintro ⟨hs, rfl⟩
    exact statementOf?_of_mem hd hs

theorem statementOf?_perm {ss ss' : List PreparedStatement} (h : ss.Perm ss')
    (hd : (ss.map (·.position)).Nodup) (j : Position) :
    statementOf? ss' j = statementOf? ss j := by
  have hd' : (ss'.map (·.position)).Nodup := (h.map _).nodup_iff.1 hd
  apply Option.ext
  intro s
  rw [statementOf?_eq_some_iff hd, statementOf?_eq_some_iff hd', h.mem_iff]

namespace Registry

variable {compile : PreparedStatement → Except ServingError Lookup}

theorem compileAll_ok_of_perm {ss ss' : List PreparedStatement} (h : ss.Perm ss')
    {m : SortedMap Position Lookup} (hm : compileAll compile ∅ ss = .ok m) :
    compileAll compile ∅ ss' = .ok m := by
  obtain ⟨hd, hfresh, hall⟩ := exists_compileAll_ok_iff.1 ⟨m, hm⟩
  obtain ⟨m', hm'⟩ : ∃ m', compileAll compile ∅ ss' = .ok m' :=
    exists_compileAll_ok_iff.2 ⟨(h.map _).nodup_iff.1 hd,
      fun s hs => hfresh s (h.mem_iff.2 hs), fun s hs => hall s (h.mem_iff.2 hs)⟩
  have hsame : m' = m := SortedMap.ext_get? fun j => by
    rw [get?_compileAll hm', get?_compileAll hm, lookupOf?, lookupOf?, statementOf?_perm h hd]
  rw [hm', hsame]

theorem compileAll_forall₂ {ss ss' : List PreparedStatement}
    (h : List.Forall₂ (fun s s' => s'.position = s.position ∧
      ∀ l, compile s' = .ok l ↔ compile s = .ok l) ss ss')
    {done m : SortedMap Position Lookup} :
    compileAll compile done ss' = .ok m ↔ compileAll compile done ss = .ok m := by
  induction h generalizing done with
  | nil => rfl
  | cons hs _ ih =>
    obtain ⟨hposition, hlookup⟩ := hs
    simp only [compileAll_cons_ok_iff, hposition, hlookup, ih]

/-- **The order of a list does not matter** to its lookups, nor does the order of the parameters if
it does not matter to the lookup of one statement. -/
theorem compileAll_rearranged
    (hcompile : ∀ {s s'}, Redeclared s s' → ∀ l, compile s' = .ok l ↔ compile s = .ok l)
    {ss ss' : List PreparedStatement} (h : Rearranged ss ss') {m : SortedMap Position Lookup} :
    compileAll compile ∅ ss' = .ok m ↔ compileAll compile ∅ ss = .ok m := by
  obtain ⟨mid, hperm, hall⟩ := h
  have hmid : List.Forall₂ (fun s s' => s'.position = s.position ∧
      ∀ l, compile s' = .ok l ↔ compile s = .ok l) mid ss' := by
    refine hall.imp fun s s' hs => ⟨?_, hcompile hs⟩
    obtain ⟨ps, -, rfl⟩ := hs
    rfl
  rw [compileAll_forall₂ hmid]
  exact ⟨compileAll_ok_of_perm hperm.symm, compileAll_ok_of_perm hperm⟩

end Registry

/-! ## The index of a plan -/

namespace KeyIndex

theorem derived_of_perm {ss ss' : List PreparedStatement} (h : ss.Perm ss') :
    (derived ss).Perm (derived ss') :=
  h.flatMap_right _

/-- Statements of distinct positions have the same index of their own keys in any order. -/
theorem ofKeys_derived_perm {ss ss' : List PreparedStatement} (h : ss.Perm ss')
    (hd : (ss.map (·.position)).Nodup) :
    ofKeys ss' (derived ss') = ofKeys ss (derived ss) := by
  have hd' : (ss'.map (·.position)).Nodup := (h.map _).nodup_iff.1 hd
  have hkeys : (ofKeys ss' (derived ss')).keys = (ofKeys ss (derived ss)).keys := by
    apply SortedMap.ext_get?
    intro j
    show (ofKeys ss' (derived ss')).keysAt? j = (ofKeys ss (derived ss)).keysAt? j
    rw [keysAt?_derived hd, keysAt?_derived hd', statementOf?_perm h hd]
  have hprefixes : (ofKeys ss' (derived ss')).prefixes = (ofKeys ss (derived ss)).prefixes := by
    apply SortedMap.ofList_perm (h.map _)
    rw [List.map_map]
    exact hd
  have hnames : (ofKeys ss' (derived ss')).validNames = (ofKeys ss (derived ss)).validNames :=
    SortedMap.setOfList_congr fun name =>
      ((derived_of_perm h).flatMap_right _).mem_iff.symm
  cases hx : ofKeys ss (derived ss)
  cases hx' : ofKeys ss' (derived ss')
  rw [hx, hx'] at hkeys hprefixes hnames
  simp only at hkeys hprefixes hnames
  rw [hkeys, hprefixes, hnames]

end KeyIndex

/-! ## The plan -/

namespace Registry

theorem valid_of_compile {single batch : List PreparedStatement} {skip : SortedSet GroupId}
    {r : Registry} (hr : compile single batch skip = .ok r) :
    ((PreparedStatement.retained skip single).map (·.position)).Nodup ∧
      ∀ s ∈ PreparedStatement.retained skip single, s.validate = .ok () := by
  obtain ⟨hsingle, -⟩ := compile_ok_iff.1 hr
  obtain ⟨hd, -, hall⟩ := exists_compileAll_ok_iff.1 ⟨_, hsingle⟩
  refine ⟨hd, fun s hs => ?_⟩
  obtain ⟨l, hl⟩ := hall s hs
  exact (Lookup.single_ok_iff.1 hl).1

/-- **The order in which metadata lists a plan does not matter.** A plan whose statements, and the
parameters of each, come in another order compiles to the same registry, or neither compiles. Where
it compiles, the keys made from the single statements have one index in any order of these. -/
theorem compile_of_rearranged {single single' batch batch' : List PreparedStatement}
    (hsingle : Rearranged single single') (hbatch : Rearranged batch batch')
    (skip : SortedSet GroupId) :
    (∀ r, compile single' batch' skip = .ok r ↔ compile single batch skip = .ok r) ∧
      ((∃ r, compile single batch skip = .ok r) → ∃ x, ∀ ss, ss.Perm single →
        KeyIndex.build ss none skip = .ok x) := by
  constructor
  · intro r
    rw [compile_ok_iff, compile_ok_iff,
      compileAll_rearranged Lookup.single_redeclared
        (PreparedStatement.rearranged_retained hsingle skip),
      compileAll_rearranged Lookup.batch_redeclared
        (PreparedStatement.rearranged_retained hbatch skip)]
  · rintro ⟨r, hr⟩
    obtain ⟨hd, hvalid⟩ := valid_of_compile hr
    let own := PreparedStatement.retained skip single
    refine ⟨.ofKeys own (KeyIndex.derived own), fun ss hss => ?_⟩
    have hown : own.Perm (PreparedStatement.retained skip ss) := (hss.filter _).symm
    apply KeyIndex.build_ok_iff.2
    constructor
    · exact fun s hs => hvalid s (hown.mem_iff.2 hs)
    · exact KeyIndex.ofKeys_derived_perm hown hd

/-! ### A plan from behind -/

/-- The sales of a shop on a day, and the shop; a retired group has a statement for the shop too. -/
def salesPlan : List PreparedStatement :=
  [{ group := none, position := 0, parameters := [⟨"day", 1⟩, ⟨"shop", 0⟩],
     query := "SELECT total FROM sales WHERE shop = ? AND day = ?", keyPrefix := none },
   { group := some 9, position := 1, parameters := [], query := " ", keyPrefix := none },
   { group := some 7, position := 1, parameters := [⟨"id", 0⟩],
     query := "SELECT rating FROM shops WHERE id = ?", keyPrefix := some "shop_" }]

/-- The plan from behind, the parameters of the sales by index. -/
def salesPlanReversed : List PreparedStatement :=
  [{ group := some 7, position := 1, parameters := [⟨"id", 0⟩],
     query := "SELECT rating FROM shops WHERE id = ?", keyPrefix := some "shop_" },
   { group := some 9, position := 1, parameters := [], query := " ", keyPrefix := none },
   { group := none, position := 0, parameters := [⟨"shop", 0⟩, ⟨"day", 1⟩],
     query := "SELECT total FROM sales WHERE shop = ? AND day = ?", keyPrefix := none }]

theorem rearranged_sales : Rearranged salesPlan salesPlanReversed :=
  ⟨salesPlan.reverse, (List.reverse_perm _).symm,
    .cons ⟨_, .refl _, rfl⟩ (.cons ⟨_, .refl _, rfl⟩ (.cons ⟨_, .swap _ _ _, rfl⟩ .nil))⟩

theorem exists_compile_sales : ∃ r, compile salesPlan [] (.ofList [9]) = .ok r := by
  have hall : ∀ s ∈ PreparedStatement.retained (.ofList [9]) salesPlan,
      ((s.parameters.map (·.index)).Nodup ∧ Text.isBlankText s.query = false) ∧
        s.parameters.length = Query.placeholders s.query := by
    decide +kernel
  refine exists_compile_ok_iff.2 ⟨exists_compileAll_ok_iff.2 ⟨by decide +kernel, ?_, ?_⟩, _, rfl⟩
  · exact fun s _ => rfl
  · intro s hs
    obtain ⟨hvalid, hplaceholders⟩ := hall s hs
    exact Lookup.exists_single_ok_iff.2
      ⟨PreparedStatement.validate_ok_iff.2 hvalid, hplaceholders⟩

/-- The plan has the same registry from behind, and its keys have the same index. -/
theorem compile_of_rearranged_sales :
    ∃ r x, compile salesPlan [] (.ofList [9]) = .ok r ∧
      compile salesPlanReversed [] (.ofList [9]) = .ok r ∧
      KeyIndex.build salesPlan none (.ofList [9]) = .ok x ∧
      KeyIndex.build salesPlan.reverse none (.ofList [9]) = .ok x := by
  obtain ⟨r, hr⟩ := exists_compile_sales
  obtain ⟨hregistry, hindex⟩ := compile_of_rearranged rearranged_sales
    ⟨[], .refl _, .nil⟩ (.ofList [9])
  obtain ⟨x, hx⟩ := hindex ⟨r, hr⟩
  exact ⟨r, x, hr, (hregistry r).2 hr, hx _ (.refl _), hx _ (List.reverse_perm _)⟩

end Registry

end FeatureServing
