import Mathlib.Data.List.Sort
import Quadratics.Proofs.Equation.Collection

/-!
# Reduction by grouping

Read as a program, reduction drains the terms one by one into an ordered map from
powers to lists of terms, takes the groups from the highest power down, folds each
with the checked addition of terms, and drops what vanishes.  Two promises are
made on the way: no group is empty, and no sum meets a term of another power.
`Grouping.run` is that program, and a broken promise is a `Breach`.

It never comes to one, and it returns the reduced form (`run_eq`).  The invariant
of the map is that it holds, for each power that has occurred, the terms of that
power in order (`groups_eq`).
-/

namespace Quadratics.Equation.Grouping

set_option autoImplicit false

/-- The promises that grouping makes. -/
inductive Breach where
  | emptyGroup
  | mixedGroup
  deriving DecidableEq

/-! ## The ordered map -/

/-- Put a term into the group of its power, in a map that ascends. -/
def insert (term : Term) : List (UInt32 × List Term) → List (UInt32 × List Term)
  | [] => [(term.power, [term])]
  | (power, terms) :: rest =>
      if term.power < power then (term.power, [term]) :: (power, terms) :: rest
      else if term.power = power then (power, terms ++ [term]) :: rest
      else (power, terms) :: insert term rest

/-- Terms drained into groups. -/
def groups (terms : List Term) : List (UInt32 × List Term) :=
  terms.foldl (fun groups term => insert term groups) []

/-! ## Folding a group -/

/-- A sum that is negligible beside the largest summand is zero. -/
def settle (sum : Term) (largest : Binary64) : Term :=
  if (sum.value - 0).abs < largest * cancellationThreshold then ⟨0, sum.power⟩ else sum

/-- The checked sum of a term and some others. -/
def addAll (first : Term) (rest : List Term) : Except Breach Term :=
  match rest.foldlM (fun sum term => sum.add (.term term)) first with
  | .ok sum => .ok sum
  | .error _ => .error .mixedGroup

/-- The term that a group amounts to. -/
def collectGroup (terms : List Term) : Except Breach Term :=
  match terms with
  | [] => .error .emptyGroup
  | first :: rest =>
      (addAll first rest).map fun sum =>
        if rest.isEmpty then sum else settle sum (largest (terms.map Term.value))

/-- Reduction, with its promises checked. -/
def run (equation : Equation) : Except Breach Equation :=
  match equation.form with
  | .reduced => .ok equation
  | .written =>
      ((groups equation.moved).reverse.mapM fun group => collectGroup group.2).map fun terms =>
        ⟨terms.filter fun term => !term.isZero, [], .reduced⟩

/-! ## What the map holds -/

/-- The terms of one power, in order. -/
def ofPower (terms : List Term) (power : UInt32) : List Term :=
  terms.filter fun term => term.power == power

theorem mem_ofPower {terms : List Term} {power : UInt32} {term : Term} :
    term ∈ ofPower terms power ↔ term ∈ terms ∧ term.power = power := by
  rw [ofPower, List.mem_filter, beq_iff_eq]

theorem ofPower_append_same (terms : List Term) (term : Term) :
    ofPower (terms ++ [term]) term.power = ofPower terms term.power ++ [term] := by
  rw [ofPower, List.filter_append]
  exact congrArg _ (List.filter_cons_of_pos (beq_self_eq_true _))

theorem ofPower_append_other (terms : List Term) {term : Term} {power : UInt32}
    (different : term.power ≠ power) : ofPower (terms ++ [term]) power = ofPower terms power := by
  rw [ofPower, List.filter_append, List.filter_cons_of_neg (by simpa using different),
    List.filter_nil, List.append_nil]
  rfl

theorem ofPower_eq_nil {terms : List Term} {power : UInt32}
    (absent : ∀ term ∈ terms, term.power ≠ power) : ofPower terms power = [] := by
  apply List.filter_eq_nil_iff.mpr
  intro term member same
  exact absent term member (beq_iff_eq.mp same)

/-- The map of some terms that has the given powers for its keys. -/
def keyed (terms : List Term) (powers : List UInt32) : List (UInt32 × List Term) :=
  powers.map fun power => (power, ofPower terms power)

/-- Groups of other powers are left as they are. -/
theorem keyed_append_of_not_mem {terms : List Term} {term : Term} {powers : List UInt32}
    (absent : term.power ∉ powers) : keyed (terms ++ [term]) powers = keyed terms powers := by
  apply List.map_congr_left
  intro power member
  rw [ofPower_append_other]
  rintro rfl
  exact absent member

/-- A power put into its place in an ascending list, once. -/
def insertKey (power : UInt32) : List UInt32 → List UInt32
  | [] => [power]
  | first :: rest =>
      if power < first then power :: first :: rest
      else if power = first then first :: rest
      else first :: insertKey power rest

theorem mem_insertKey {power other : UInt32} {keys : List UInt32} :
    other ∈ insertKey power keys ↔ other = power ∨ other ∈ keys := by
  induction keys with
  | nil => rw [insertKey, List.mem_singleton, or_iff_left List.not_mem_nil]
  | cons first rest ih =>
    simp only [insertKey]
    split
    · exact List.mem_cons
    · split
      · rename_i same
        subst same
        rw [List.mem_cons, or_self_left]
      · rw [List.mem_cons, List.mem_cons, ih, or_left_comm]

theorem pairwise_insertKey {power : UInt32} {keys : List UInt32}
    (ascending : keys.Pairwise (· < ·)) : (insertKey power keys).Pairwise (· < ·) := by
  induction keys with
  | nil => exact List.pairwise_singleton _ _
  | cons first rest ih =>
    obtain ⟨below, restAscending⟩ := List.pairwise_cons.mp ascending
    simp only [insertKey]
    split
    · rename_i before
      refine List.pairwise_cons.mpr ⟨?_, ascending⟩
      intro other member
      rcases List.mem_cons.mp member with rfl | member
      · exact before
      · exact UInt32.lt_trans before (below other member)
    · split
      · exact ascending
      · rename_i notBefore different
        refine List.pairwise_cons.mpr ⟨?_, ih restAscending⟩
        intro other member
        rcases mem_insertKey.mp member with rfl | member
        · exact UInt32.lt_of_le_of_ne (UInt32.not_lt.mp notBefore) (Ne.symm different)
        · exact below other member

/-- A term goes into its group, and a new group is opened only for a new power. -/
theorem insert_keyed {terms : List Term} {term : Term} {keys : List UInt32}
    (ascending : keys.Pairwise (· < ·))
    (complete : term.power ∉ keys → ofPower terms term.power = []) :
    insert term (keyed terms keys) = keyed (terms ++ [term]) (insertKey term.power keys) := by
  induction keys with
  | nil =>
    show [(term.power, [term])] = [(term.power, ofPower (terms ++ [term]) term.power)]
    rw [ofPower_append_same, complete List.not_mem_nil, List.nil_append]
  | cons first rest ih =>
    obtain ⟨below, restAscending⟩ := List.pairwise_cons.mp ascending
    show insert term ((first, ofPower terms first) :: keyed terms rest) = _
    simp only [insert, insertKey]
    split
    · rename_i before
      have absent : term.power ∉ first :: rest := by
        intro member
        rcases List.mem_cons.mp member with same | member
        · exact UInt32.lt_irrefl _ (same ▸ before)
        · exact UInt32.lt_irrefl _ (UInt32.lt_trans before (below _ member))
      show _ = (term.power, ofPower (terms ++ [term]) term.power) ::
        keyed (terms ++ [term]) (first :: rest)
      rw [ofPower_append_same, complete absent, keyed_append_of_not_mem absent]
      rfl
    · split
      · rename_i same
        subst same
        have absent : term.power ∉ rest := fun member => UInt32.lt_irrefl _ (below _ member)
        show _ = (term.power, ofPower (terms ++ [term]) term.power) ::
          keyed (terms ++ [term]) rest
        rw [ofPower_append_same, keyed_append_of_not_mem absent]
      · rename_i different
        show _ = (first, ofPower (terms ++ [term]) first) ::
          keyed (terms ++ [term]) (insertKey term.power rest)
        rw [ofPower_append_other terms different, ih restAscending]
        intro absent
        exact complete fun member => (List.mem_cons.mp member).elim different absent

/-- **The map holds the terms of each power that occurs, in order.** -/
theorem groups_eq (terms : List Term) :
    ∃ keys : List UInt32, keys.Pairwise (· < ·) ∧
      (∀ power, power ∈ keys ↔ ∃ term ∈ terms, term.power = power) ∧
      groups terms = keyed terms keys := by
  -- Terms are drained from the front, so the induction takes them off the end.
  induction terms using List.reverseRecOn with
  | nil => exact ⟨[], .nil, fun power => by simp, rfl⟩
  | append_singleton terms term ih =>
    obtain ⟨keys, ascending, complete, same⟩ := ih
    refine ⟨insertKey term.power keys, pairwise_insertKey ascending, fun power => ?_, ?_⟩
    · rw [mem_insertKey, complete]
      constructor
      · rintro (rfl | ⟨other, member, rfl⟩)
        · exact ⟨term, List.mem_append_right _ List.mem_cons_self, rfl⟩
        · exact ⟨other, List.mem_append_left _ member, rfl⟩
      · rintro ⟨other, member, rfl⟩
        rcases List.mem_append.mp member with member | member
        · exact .inr ⟨other, member, rfl⟩
        · exact .inl (congrArg Term.power (List.mem_singleton.mp member))
    · rw [groups, List.foldl_append]
      show insert term (groups terms) = _
      rw [same, insert_keyed ascending]
      intro absent
      refine ofPower_eq_nil fun other member same => absent ?_
      exact (complete _).mpr ⟨other, member, same⟩

/-- Taken from its end, the map has the powers that reduction goes through. -/
theorem reverse_groups (terms : List Term) :
    (groups terms).reverse = keyed terms (powers terms) := by
  obtain ⟨keys, ascending, complete, same⟩ := groups_eq terms
  have keysReversed : keys.reverse = powers terms := by
    refine List.Pairwise.eq_of_mem_iff (List.pairwise_reverse.mpr ascending)
      (pairwise_powers terms) fun power => ?_
    rw [List.mem_reverse, complete, mem_powers]
  rw [same, keyed, ← List.map_reverse, keysReversed]
  rfl

/-! ## What a group amounts to -/

/-- Terms of one power add up without a breach. -/
theorem addAll_eq {first : Term} {rest : List Term}
    (like : ∀ term ∈ rest, term.power = first.power) :
    addAll first rest =
      .ok ⟨(rest.map Term.value).foldl Binary64.add first.value, first.power⟩ := by
  have folded : rest.foldlM (fun sum term => sum.add (.term term)) first =
      .ok ⟨(rest.map Term.value).foldl Binary64.add first.value, first.power⟩ := by
    induction rest generalizing first with
    | nil => rfl
    | cons term rest ih =>
      obtain ⟨same, like⟩ := List.forall_mem_cons.mp like
      have added : first.add (.term term) = .ok ⟨first.value + term.value, first.power⟩ := by
        refine if_pos ?_
        rw [Term.isLike, same]
        exact beq_self_eq_true _
      rw [List.foldlM_cons, added]
      exact @ih ⟨first.value + term.value, first.power⟩ like
  rw [addAll, folded]

/-- **A group amounts to what its values are collected to.** -/
theorem collectGroup_eq {terms : List Term} {power : UInt32} (some : terms ≠ [])
    (like : ∀ term ∈ terms, term.power = power) :
    collectGroup terms = .ok ⟨collect (terms.map Term.value), power⟩ := by
  match terms with
  | first :: rest =>
    obtain ⟨rfl, like⟩ := List.forall_mem_cons.mp like
    rw [collectGroup, addAll_eq like]
    refine congrArg Except.ok ?_
    match rest with
    | [] => exact congrArg (Term.mk · first.power) (collect_singleton first.value).symm
    | second :: rest =>
      have many : 2 ≤ ((first :: second :: rest).map Term.value).length := by
        rw [List.length_map]
        exact Nat.le_add_left _ _
      simp only [List.isEmpty_cons, Bool.false_eq_true, if_false, settle, Binary64.sub_zero,
        collect, many, true_and, cancels, decide_eq_true_iff]
      split
      · rename_i noise
        exact congrArg (Term.mk · first.power) (if_pos noise).symm
      · rename_i notNoise
        exact congrArg (Term.mk · first.power) (if_neg notNoise).symm

/-- The groups of powers that occur amount to what their values are collected to. -/
theorem mapM_collectGroup {terms : List Term} {keys : List UInt32}
    (occur : ∀ power ∈ keys, ∃ term ∈ terms, term.power = power) :
    ((keyed terms keys).mapM fun group => collectGroup group.2) =
      .ok (keys.map fun power => ⟨collect (likeValues terms power), power⟩) := by
  induction keys with
  | nil => rfl
  | cons power keys ih =>
    obtain ⟨⟨term, member, same⟩, occur⟩ := List.forall_mem_cons.mp occur
    have some : ofPower terms power ≠ [] := List.ne_nil_of_mem (mem_ofPower.mpr ⟨member, same⟩)
    have collected : collectGroup (ofPower terms power) =
        .ok ⟨collect (likeValues terms power), power⟩ :=
      collectGroup_eq some fun term member => (mem_ofPower.mp member).2
    have later := ih occur
    rw [keyed] at later ⊢
    rw [List.map_cons, List.mapM_cons, collected, later]
    rfl

/-- **Grouping keeps its promises, and returns the reduced form.** -/
theorem run_eq (equation : Equation) : run equation = .ok equation.reduce := by
  obtain ⟨left, right, form⟩ := equation
  cases form with
  | reduced => rfl
  | written =>
    simp only [run, reduce]
    rw [reverse_groups, mapM_collectGroup fun power => mem_powers.mp]
    rfl

end Quadratics.Equation.Grouping
