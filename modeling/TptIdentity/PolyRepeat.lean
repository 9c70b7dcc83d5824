import TptIdentity.PolyShare

/-!
# Interpolation with repeated nodes

Interpolation at `0` with nodes that are not distinct. The terms of a repeated node disappear,
and the others get a factor (`sum_weight_eq`). `forall_sum_weight_iff` says when the value is
still right for every polynomial of degree below `t`.
-/

namespace PolyShare

open Polynomial Finset

/-! ## Nodes that occur once -/

section Unrepeated

variable {F ι : Type*} [DecidableEq F]

def unrepeated (s : Finset ι) (v : ι → F) [DecidableEq ι] : Finset ι :=
  s.filter fun i => ∀ j ∈ s, v j = v i → j = i

variable [DecidableEq ι] {s : Finset ι} {v : ι → F}

theorem mem_unrepeated {i : ι} :
    i ∈ unrepeated s v ↔ i ∈ s ∧ ∀ j ∈ s, v j = v i → j = i := mem_filter

theorem unrepeated_subset : unrepeated s v ⊆ s := filter_subset _ _

theorem injOn_unrepeated : Set.InjOn v (unrepeated s v) := by
  intro i hi j hj hij
  exact (mem_unrepeated.mp hj).2 i (unrepeated_subset hi) hij

theorem unrepeated_of_injOn (h : Set.InjOn v s) : unrepeated s v = s :=
  filter_true_of_mem fun _ hi _ hj hij => h hj hi hij

end Unrepeated

variable {F : Type*} [Field F] {ι : Type*} [DecidableEq ι]

def weight (s : Finset ι) (v : ι → F) (i : ι) : F :=
  (∏ j ∈ s.erase i, v j) * (∏ j ∈ s.erase i, (v j - v i))⁻¹

variable {s : Finset ι} {v : ι → F}

/-- The value at `0` is missed by the leading coefficient times the product of the nodes. -/
theorem sum_weight_of_natDegree (hv : Set.InjOn v s) {p : F[X]} (hp : p.natDegree = s.card) :
    ∑ i ∈ s, p.eval (v i) * weight s v i
      = p.eval 0 - p.leadingCoeff * ∏ i ∈ s, (0 - v i) := by
  have hnodal : (C p.leadingCoeff * Lagrange.nodal s v).natDegree ≤ s.card :=
    (natDegree_C_mul_le _ _).trans Lagrange.natDegree_nodal.le
  have hdeg : (p - C p.leadingCoeff * Lagrange.nodal s v).degree < s.card := by
    rw [degree_lt_iff_coeff_zero]
    intro m hm
    rcases eq_or_lt_of_le hm with rfl | hlt
    · have hlead : (Lagrange.nodal s v).coeff s.card = 1 := by
        have hmonic := Lagrange.nodal_monic (s := s) (v := v)
        rwa [Monic, leadingCoeff, Lagrange.natDegree_nodal] at hmonic
      rw [coeff_sub, coeff_C_mul, hlead, mul_one, leadingCoeff, hp, sub_self]
    · rw [coeff_sub, coeff_eq_zero_of_natDegree_lt (hp ▸ hlt),
        coeff_eq_zero_of_natDegree_lt (lt_of_le_of_lt hnodal hlt), sub_zero]
  have hinterp := lagrange_at_zero hv hdeg
  rw [eval_sub, eval_mul, eval_C, Lagrange.eval_nodal] at hinterp
  rw [← hinterp]
  refine sum_congr rfl fun i hi => ?_
  rw [eval_sub, eval_mul, Lagrange.eval_nodal_at_node hi, mul_zero, sub_zero, weight]

/-! ## The terms of the formula -/

variable [DecidableEq F]

def repeatFactor (s : Finset ι) (v : ι → F) (x : F) : F :=
  (∏ j ∈ s \ unrepeated s v, v j) * (∏ j ∈ s \ unrepeated s v, (v j - x))⁻¹

theorem weight_of_repeated {i : ι} (hi : i ∈ s) (h : i ∉ unrepeated s v) : weight s v i = 0 := by
  have hrepeated : ∃ j ∈ s, v j = v i ∧ j ≠ i := by
    by_contra hno
    push Not at hno
    exact h (mem_unrepeated.mpr ⟨hi, fun j hj hij => by
      by_contra hne
      exact hne (hno j hj hij)⟩)
  obtain ⟨j, hj, hij, hne⟩ := hrepeated
  have hden : ∏ j ∈ s.erase i, (v j - v i) = 0 :=
    prod_eq_zero (mem_erase.mpr ⟨hne, hj⟩) (sub_eq_zero.mpr hij)
  rw [weight, hden, inv_zero, mul_zero]

theorem weight_of_unrepeated {i : ι} (hi : i ∈ unrepeated s v) :
    weight s v i = repeatFactor s v (v i) * weight (unrepeated s v) v i := by
  have hsplit : ∀ f : ι → F, ∏ j ∈ s.erase i, f j
      = (∏ j ∈ s \ unrepeated s v, f j) * ∏ j ∈ (unrepeated s v).erase i, f j := by
    intro f
    have herase : s.erase i \ (unrepeated s v).erase i = s \ unrepeated s v := by
      ext j
      simp only [mem_sdiff, mem_erase]
      constructor
      · rintro ⟨⟨hne, hj⟩, hnot⟩
        exact ⟨hj, fun h => hnot ⟨hne, h⟩⟩
      · rintro ⟨hj, hnot⟩
        exact ⟨⟨fun h => hnot (h ▸ hi), hj⟩, fun h => hnot h.2⟩
    have hsub : (unrepeated s v).erase i ⊆ s.erase i :=
      erase_subset_erase i unrepeated_subset
    rw [← prod_sdiff hsub, herase]
  rw [weight, hsplit, hsplit, mul_inv, repeatFactor, weight]
  ring

theorem sum_weight_eq (y : ι → F) :
    ∑ i ∈ s, y i * weight s v i
      = ∑ i ∈ unrepeated s v, (y i * repeatFactor s v (v i)) * weight (unrepeated s v) v i := by
  rw [← sum_subset unrepeated_subset fun i hi h => by
    rw [weight_of_repeated hi h, mul_zero]]
  refine sum_congr rfl fun i hi => ?_
  rw [weight_of_unrepeated hi, mul_assoc]

/-! ## When the formula is right -/

def Harmless (s : Finset ι) (v : ι → F) (t : ℕ) : Prop :=
  ∃ g : F[X], g.natDegree + t ≤ (unrepeated s v).card ∧ g.eval 0 = 1
    ∧ ∀ i ∈ unrepeated s v, g.eval (v i) = repeatFactor s v (v i)

theorem harmless_of_injOn (h : Set.InjOn v s) {t : ℕ} (ht : t ≤ s.card) : Harmless s v t := by
  refine ⟨1, ?_, eval_one, fun i _ => ?_⟩
  · rw [natDegree_one, Nat.zero_add, unrepeated_of_injOn h]
    exact ht
  · rw [eval_one, repeatFactor, unrepeated_of_injOn h, Finset.sdiff_self, Finset.prod_empty,
      prod_empty, inv_one, mul_one]

theorem sum_weight_of_harmless {t : ℕ} (h : Harmless s v t) {f : F[X]} (hf : f.degree < t) :
    ∑ i ∈ s, f.eval (v i) * weight s v i = f.eval 0 := by
  obtain ⟨g, hdeg, hzero, hvalue⟩ := h
  have hprod : (f * g).degree < (unrepeated s v).card := by
    have hbot : f * g ≠ 0 → (f * g).natDegree < (unrepeated s v).card := by
      intro hne
      have hfne := left_ne_zero_of_mul hne
      have hlt := (natDegree_lt_iff_degree_lt hfne).mpr hf
      have hle := natDegree_mul_le (p := f) (q := g)
      omega
    by_cases hne : f * g = 0
    · rw [hne, degree_zero]
      exact WithBot.bot_lt_coe _
    · exact (natDegree_lt_iff_degree_lt hne).mp (hbot hne)
  have hinterp := lagrange_at_zero injOn_unrepeated hprod
  rw [eval_mul, hzero, mul_one] at hinterp
  rw [sum_weight_eq, ← hinterp]
  refine sum_congr rfl fun i hi => ?_
  rw [eval_mul, hvalue i hi, weight]

theorem exists_factor_polynomial (h0 : ∀ i ∈ s, v i ≠ 0) :
    ∃ g : F[X], g.natDegree ≤ (unrepeated s v).card ∧ g.eval 0 = 1
      ∧ ∀ i ∈ unrepeated s v, g.eval (v i) = repeatFactor s v (v i) := by
  classical
  have hzero : repeatFactor s v 0 = 1 := by
    have hne : ∏ j ∈ s \ unrepeated s v, v j ≠ 0 :=
      prod_ne_zero_iff.mpr fun j hj => h0 j (mem_sdiff.mp hj).1
    simp only [repeatFactor, sub_zero]
    exact mul_inv_cancel₀ hne
  let nodes : Finset F := insert 0 ((unrepeated s v).image v)
  have hcard : nodes.card ≤ (unrepeated s v).card + 1 :=
    (card_insert_le _ _).trans (Nat.succ_le_succ card_image_le)
  have hinj : Set.InjOn (id : F → F) nodes := Set.injOn_id _
  have hvalue : ∀ x ∈ nodes, (Lagrange.interpolate nodes id (repeatFactor s v)).eval x
      = repeatFactor s v x := fun x hx =>
    Lagrange.eval_interpolate_at_node (v := id) (repeatFactor s v) hinj hx
  refine ⟨Lagrange.interpolate nodes id (repeatFactor s v), ?_, ?_, fun i hi => ?_⟩
  · have hlt := Lagrange.degree_interpolate_le (repeatFactor s v) hinj
    have hle := natDegree_le_of_degree_le hlt
    omega
  · rw [hvalue 0 (mem_insert_self _ _), hzero]
  · exact hvalue (v i) (mem_insert_of_mem (mem_image_of_mem v hi))

theorem forall_sum_weight_iff (h0 : ∀ i ∈ s, v i ≠ 0) (t : ℕ) :
    (∀ f : F[X], f.degree < t → ∑ i ∈ s, f.eval (v i) * weight s v i = f.eval 0)
      ↔ Harmless s v t := by
  constructor
  · intro h
    obtain ⟨g, hle, hzero, hvalue⟩ := exists_factor_polynomial h0
    refine ⟨g, ?_, hzero, hvalue⟩
    -- otherwise some power of X makes the degree of the product the number of nodes
    by_contra hlarge
    have hg : g ≠ 0 := by
      rintro rfl
      exact zero_ne_one ((eval_zero (R := F)).symm.trans hzero)
    obtain ⟨k, hk⟩ := Nat.exists_eq_add_of_le hle
    have hpow : (X ^ k * g : F[X]).natDegree = (unrepeated s v).card := by
      rw [natDegree_X_pow_mul k hg, hk]
    have hsum := h (X ^ k) (by
      rw [degree_X_pow]
      exact_mod_cast (by omega : k < t))
    have hmiss := sum_weight_of_natDegree injOn_unrepeated hpow
    have hterms : ∑ i ∈ s, (X ^ k : F[X]).eval (v i) * weight s v i
        = ∑ i ∈ unrepeated s v, (X ^ k * g).eval (v i) * weight (unrepeated s v) v i := by
      rw [sum_weight_eq]
      refine sum_congr rfl fun i hi => ?_
      rw [eval_mul, hvalue i hi]
    rw [← hterms, hsum, eval_mul, hzero, mul_one, eq_comm, sub_eq_self] at hmiss
    rcases mul_eq_zero.mp hmiss with hlead | hnodes
    · rw [leadingCoeff_eq_zero] at hlead
      exact mul_ne_zero (pow_ne_zero k X_ne_zero) hg hlead
    · obtain ⟨i, hi, hzero⟩ := prod_eq_zero_iff.mp hnodes
      rw [zero_sub, neg_eq_zero] at hzero
      exact h0 i (unrepeated_subset hi) hzero
  · intro h f hf
    exact sum_weight_of_harmless h hf

end PolyShare
