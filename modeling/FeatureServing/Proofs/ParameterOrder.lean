import FeatureServing.PreparedStatement
import FeatureServing.Proofs.Fallible

/-!
# Parameters in the order of their placeholders

* `validate_ok_iff` : a valid statement declares no index twice and has a query;
* `rank` : how many parameters of a statement have a smaller index;
* `rank_sortedParameters`, `rank_eq_iff` : in a valid statement the sorted parameter at a place has
  that rank and no other has, so the order does not depend on how the parameters are listed.
-/

namespace FeatureServing.PreparedStatement

theorem firstRepeated?_eq_none_iff {seen l : List UInt64} :
    firstRepeated? seen l = none ↔ l.Nodup ∧ ∀ i ∈ l, i ∉ seen := by
  induction l generalizing seen with
  | nil => simp [firstRepeated?]
  | cons i rest ih =>
    by_cases hi : i ∈ seen
    · simp [firstRepeated?, hi]
    · have hstep : firstRepeated? seen (i :: rest) = firstRepeated? (i :: seen) rest := by
        simp [firstRepeated?, hi]
      rw [hstep, ih, List.nodup_cons, List.forall_mem_cons]
      constructor
      · rintro ⟨hn, hrest⟩
        exact ⟨⟨fun h => hrest i h List.mem_cons_self, hn⟩, hi,
          fun j hj h => hrest j hj (List.mem_cons_of_mem _ h)⟩
      · rintro ⟨⟨hnot, hn⟩, -, hrest⟩
        refine ⟨hn, fun j hj h => ?_⟩
        rcases List.mem_cons.1 h with rfl | h
        · exact hnot hj
        · exact hrest j hj h

theorem validate_ok_iff {s : PreparedStatement} :
    s.validate = .ok () ↔
      (s.parameters.map (·.index)).Nodup ∧ Text.isBlankText s.query = false := by
  have hnone : firstRepeated? [] (s.parameters.map (·.index)) = none ↔
      (s.parameters.map (·.index)).Nodup := by
    simp [firstRepeated?_eq_none_iff]
  rw [validate, ← hnone]
  cases firstRepeated? [] (s.parameters.map (·.index)) with
  | some i => simp
  | none => cases Text.isBlankText s.query <;> simp

/-! ## Sorted parameters -/

theorem sortedParameters_perm (s : PreparedStatement) : s.sortedParameters.Perm s.parameters :=
  List.mergeSort_perm _ _

theorem length_sortedParameters (s : PreparedStatement) :
    s.sortedParameters.length = s.parameters.length :=
  s.sortedParameters_perm.length_eq

theorem length_primaryKeyNames (s : PreparedStatement) :
    s.primaryKeyNames.length = s.parameters.length := by
  rw [primaryKeyNames, List.length_map, length_sortedParameters]

theorem pairwise_le_sortedParameters (s : PreparedStatement) :
    s.sortedParameters.Pairwise fun p q => p.index ≤ q.index := by
  refine (List.pairwise_mergeSort (fun a b c hab hbc => ?_) (fun a b => ?_) _).imp fun h => ?_
  · simp only [decide_eq_true_eq] at hab hbc ⊢
    exact UInt64.le_trans hab hbc
  · simpa using UInt64.le_total a.index b.index
  · simpa using h

theorem pairwise_lt_sortedParameters {s : PreparedStatement}
    (h : (s.parameters.map (·.index)).Nodup) :
    s.sortedParameters.Pairwise fun p q => p.index < q.index := by
  have hne : (s.sortedParameters.map (·.index)).Nodup :=
    (s.sortedParameters_perm.map _).nodup_iff.2 h
  rw [List.Nodup, List.pairwise_map] at hne
  exact (s.pairwise_le_sortedParameters.and hne).imp fun ⟨hle, hne⟩ =>
    UInt64.lt_of_le_of_ne hle hne

/-! ## Ranks -/

/-- How many parameters of the statement have a smaller index. -/
def rank (s : PreparedStatement) (p : Parameter) : Nat :=
  s.parameters.countP fun q => q.index < p.index

/-- In a strictly ascending list as many items are smaller than one as stand in front of it. -/
theorem countP_lt_getElem {l : List Parameter} (h : l.Pairwise fun p q => p.index < q.index)
    (k : Nat) (hk : k < l.length) : (l.countP fun q => q.index < l[k].index) = k := by
  induction l generalizing k with
  | nil => simp at hk
  | cons p rest ih =>
    obtain ⟨hp, hrest⟩ := List.pairwise_cons.1 h
    cases k with
    | zero =>
      refine List.countP_eq_zero.2 fun q hq => ?_
      rcases List.mem_cons.1 hq with rfl | hq
      · simp
      · simpa using UInt64.le_of_lt (hp q hq)
    | succ k =>
      have hk' : k < rest.length := Nat.lt_of_succ_lt_succ hk
      have hlt : p.index < rest[k].index := hp _ (List.getElem_mem hk')
      rw [List.getElem_cons_succ, List.countP_cons, ih hrest k hk']
      simp [hlt]

theorem rank_sortedParameters {s : PreparedStatement} (h : (s.parameters.map (·.index)).Nodup)
    (k : Nat) (hk : k < s.sortedParameters.length) : s.rank s.sortedParameters[k] = k := by
  rw [rank, ← s.sortedParameters_perm.countP_eq]
  exact countP_lt_getElem (pairwise_lt_sortedParameters h) k hk

theorem rank_eq_iff {s : PreparedStatement} (h : (s.parameters.map (·.index)).Nodup) {p : Parameter}
    (hp : p ∈ s.parameters) {k : Nat} : s.rank p = k ↔ s.sortedParameters[k]? = some p := by
  obtain ⟨i, hi, rfl⟩ := List.getElem_of_mem (s.sortedParameters_perm.mem_iff.2 hp)
  rw [rank_sortedParameters h i hi]
  constructor
  · rintro rfl
    exact List.getElem?_eq_getElem hi
  · intro hk
    obtain ⟨hk', heq⟩ := List.getElem?_eq_some_iff.1 hk
    rw [← rank_sortedParameters h i hi, ← heq, rank_sortedParameters h k hk']

end FeatureServing.PreparedStatement
