import Mathlib.LinearAlgebra.Lagrange
import Mathlib.Probability.Distributions.Uniform

/-!
# Polynomial secret sharing over a field

Shamir's scheme over a field. A polynomial is determined at `0` by its values at enough nodes
(`lagrange_at_zero`). With fewer, the coefficients can be translated to exchange any secret for
another (`exists_translation`), so uniform choices give equal distributions (`uniform_map_eq`).
-/

namespace PolyShare

open Polynomial Finset

variable {F : Type*} [Field F]

/-! ## Coefficient lists -/

def horner (cs : List F) (x : F) : F :=
  cs.foldr (fun c r => r * x + c) 0

noncomputable def polyOf : List F → F[X]
  | [] => 0
  | c :: cs => polyOf cs * X + C c

theorem eval_polyOf (x : F) : ∀ cs : List F, (polyOf cs).eval x = horner cs x
  | [] => by simp [polyOf, horner]
  | c :: cs => by
    have ih := eval_polyOf x cs
    simp [polyOf, horner, ih]

theorem degree_polyOf_lt : ∀ cs : List F, (polyOf cs).degree < (cs.length : WithBot ℕ)
  | [] => by simp [polyOf]
  | c :: cs => by
    have ih := degree_polyOf_lt cs
    rw [degree_lt_iff_coeff_zero] at ih ⊢
    intro m hm
    obtain ⟨k, rfl⟩ : ∃ k, m = k + 1 := ⟨m - 1, by simp at hm; omega⟩
    have hk : cs.length ≤ k := by simpa using hm
    simp [polyOf, ih k hk]

variable {k : ℕ} {I : Finset F} (s : F)

theorem polyOf_eval_zero (cs : List F) : (polyOf (s :: cs)).eval 0 = s := by
  simp [polyOf]

/-! ## Recovery -/

theorem lagrange_at_zero {ι : Type*} [DecidableEq ι] {s : Finset ι} {v : ι → F}
    (hv : Set.InjOn v s) {f : F[X]} (hf : f.degree < s.card) :
    ∑ i ∈ s, f.eval (v i) * ((∏ j ∈ s.erase i, v j)
      * (∏ j ∈ s.erase i, (v j - v i))⁻¹) = f.eval 0 := by
  have hinterp : f = Lagrange.interpolate s v (fun i => f.eval (v i)) :=
    Lagrange.eq_interpolate hv hf
  conv_rhs => rw [hinterp, Lagrange.interpolate_apply, eval_finsetSum]
  refine sum_congr rfl fun i _ => ?_
  rw [eval_mul, eval_C, Lagrange.basis, eval_prod, ← prod_inv_distrib, ← prod_mul_distrib]
  congr 1
  refine prod_congr rfl fun j _ => ?_
  rw [Lagrange.basisDivisor, eval_mul, eval_C, eval_sub, eval_X, eval_C, zero_sub,
    ← neg_sub (v j) (v i), inv_neg]
  ring

/-! ## Secrecy -/

def shareAt {k : ℕ} (s : F) (c : Fin k → F) (x : F) : F :=
  s + ∑ j, c j * x ^ (j.val + 1)

theorem horner_ofFn (c : Fin k → F) (x : F) : horner (s :: List.ofFn c) x = shareAt s c x := by
  induction k generalizing s with
  | zero => simp [horner, shareAt]
  | succ k ih =>
    have h := ih (c 0) (fun j => c j.succ)
    rw [List.ofFn_succ]
    simp only [horner, List.foldr_cons] at h ⊢
    rw [h]
    simp only [shareAt, Fin.sum_univ_succ, Fin.val_zero, Fin.val_succ, add_mul, sum_mul]
    rw [add_comm]
    congr 2
    · ring
    · exact sum_congr rfl fun j _ => by ring

/-- The mask: `δ` at `0`, zero on `I`, of degree at most `I.card`. -/
noncomputable def mask (I : Finset F) (δ : F) : F[X] :=
  C δ * ∏ x ∈ I, (1 - C x⁻¹ * X)

theorem mask_eval_zero (I : Finset F) (δ : F) : (mask I δ).eval 0 = δ := by
  simp [mask, eval_prod]

theorem mask_eval_mem (h0 : (0 : F) ∉ I) (δ : F) {x : F} (hx : x ∈ I) : (mask I δ).eval x = 0 := by
  have hx0 : x ≠ 0 := fun h => h0 (h ▸ hx)
  rw [mask, eval_mul, eval_prod, prod_eq_zero hx, mul_zero]
  simp [hx0]

theorem mask_natDegree_le (I : Finset F) (δ : F) : (mask I δ).natDegree ≤ I.card := by
  refine (natDegree_C_mul_le _ _).trans ((natDegree_prod_le _ _).trans ?_)
  calc ∑ x ∈ I, (1 - C x⁻¹ * X : F[X]).natDegree
      ≤ ∑ _x ∈ I, 1 := sum_le_sum fun x _ =>
        (natDegree_sub_le _ _).trans (by simpa using natDegree_C_mul_X_pow_le x⁻¹ 1)
    _ = I.card := by simp

theorem exists_mask_coeffs (h0 : (0 : F) ∉ I) (hI : I.card ≤ k) (δ : F) :
    ∃ d : Fin k → F, ∀ x ∈ I, shareAt δ d x = 0 := by
  refine ⟨fun j => (mask I δ).coeff (j.val + 1), fun x hx => ?_⟩
  have hlt : (mask I δ).natDegree < k + 1 :=
    Nat.lt_succ_of_le ((mask_natDegree_le I δ).trans hI)
  have hsum := eval_eq_sum_range' hlt x
  rw [mask_eval_mem h0 δ hx, sum_range_succ', pow_zero, mul_one,
    coeff_zero_eq_eval_zero, mask_eval_zero] at hsum
  rw [shareAt, Fin.sum_univ_eq_sum_range
    (fun j => (mask I δ).coeff (j + 1) * x ^ (j + 1)), add_comm]
  exact hsum.symm

theorem shareAt_add (δ : F) (c d : Fin k → F) (x : F) :
    shareAt (s + δ) (c + d) x = shareAt s c x + shareAt δ d x := by
  simp only [shareAt, Pi.add_apply, add_mul, sum_add_distrib]
  ring

theorem exists_translation {ι : Type*} (h0 : (0 : F) ∉ I) (hI : I.card ≤ k) (s s' : ι → F) :
    ∃ d : ι → Fin k → F, ∀ (c : ι → Fin k → F) (b : ι), ∀ x ∈ I,
      shareAt (s' b) ((c + d) b) x = shareAt (s b) (c b) x := by
  choose d hd using fun b => exists_mask_coeffs h0 hI (s' b - s b)
  refine ⟨d, fun c b x hx => ?_⟩
  have h := shareAt_add (s b) (s' b - s b) (c b) (d b) x
  rw [hd b x hx, add_zero, add_sub_cancel] at h
  exact h

/-! ## Counting and distributions along a bijection -/

section Counting

variable {C V : Type*} [Fintype C] {view view' : C → V} (e : C ≃ C)
  (h : ∀ c, view' (e c) = view c)

include h

theorem card_fiber_eq [DecidableEq V] (v : V) :
    Fintype.card {c // view c = v} = Fintype.card {c // view' c = v} :=
  Fintype.card_congr (e.subtypeEquiv fun c => by rw [h c])

theorem uniform_map_eq [Nonempty C] :
    (PMF.uniformOfFintype C).map view = (PMF.uniformOfFintype C).map view' := by
  have hmap : (PMF.uniformOfFintype C).map e = PMF.uniformOfFintype C := by
    ext c
    rw [PMF.map_apply, tsum_eq_single (e.symm c)]
    · simp
    · intro b hb
      rw [if_neg]
      rintro rfl
      exact hb (by simp)
  conv_rhs => rw [← hmap, PMF.map_comp]
  congr 1
  funext c
  exact (h c).symm

end Counting

end PolyShare
