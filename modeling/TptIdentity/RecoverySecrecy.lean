import TptIdentity.RecoverySplit

/-!
# Fewer shares than the threshold carry no information

For the observed indices, the choices for one secret are translated to choices for another
without moving an observed byte. So their counts agree (`card_fiber_eq`), and the observations
have one distribution (`uniform_map_eq`).
-/

namespace TptIdentity.Recovery

open Go List

abbrev Choice (len k : Nat) := Fin len → Fin k → UInt8

def Choice.rand {len k : Nat} (c : Choice len k) : Rand :=
  Rand.of fun i j => if h : i < len ∧ j < k then c ⟨i, h.1⟩ ⟨j, h.2⟩ else 0

def observe (I : Finset UInt8) : Res (List Share) → Res (List Share)
  | .ok shares => .ok (shares.filter (·.index ∈ I))
  | r => r

def Choice.translate {len k : Nat} (d : Fin len → Fin k → GF256) (c : Choice len k) :
    Choice len k :=
  fun b j => (⟨c b j⟩ + d b j : GF256).byte

variable {len k : Nat} {t n : Int} (c : Choice len k)

theorem Choice.translate_involutive (d : Fin len → Fin k → GF256) :
    Function.Involutive (Choice.translate d) := by
  intro c
  funext b j
  have h : (⟨c b j⟩ + d b j + d b j : GF256) = ⟨c b j⟩ := by
    rw [add_assoc, GF256.add_self, add_zero]
  exact congrArg GF256.byte h

theorem Choice.drawn_eq (b : Fin len) : (List.range k).map (c.rand.byte b) = List.ofFn (c b) := by
  refine ext_getElem (by simp) fun j hj _ => ?_
  have hj : j < k := by simpa using hj
  simp [Choice.rand, Rand.of, hj]

theorem gfPolyEval_drawn (s x : UInt8) (b : Fin len) :
    (⟨gfPolyEval (s :: (List.range k).map (c.rand.byte b)) x⟩ : GF256)
      = PolyShare.shareAt ⟨s⟩ (fun j => ⟨c b j⟩) ⟨x⟩ := by
  rw [mk_gfPolyEval, c.drawn_eq, map_cons, map_ofFn]
  exact PolyShare.horner_ofFn ..

theorem ofNat_succ_ne_zero {i : Nat} (h : i < 255) : UInt8.ofNat (i + 1) ≠ 0 := by
  intro h0
  have := congrArg UInt8.toNat h0
  simp at this
  omega

theorem exists_split_translation (ht : 2 ≤ t) (htn : t ≤ n) (hn : n ≤ 255) {I : Finset UInt8}
    (hI : (I.card : Int) ≤ t - 1) {s s' : Bytes} (hne : s ≠ []) (hlen : s'.length = s.length) :
    ∃ d : Fin s.length → Fin (t.toNat - 1) → GF256, ∀ c : Choice s.length (t.toNat - 1),
      observe I (split s' t n (c.translate d).rand) = observe I (split s t n c.rand) := by
  -- the observed nodes; index 0 is never dealt and may be dropped
  let J : Finset GF256 := (I.erase 0).map GF256.equivByte.toEmbedding
  have h0 : (0 : GF256) ∉ J := by
    intro h
    obtain ⟨x, hx, hx0⟩ := Finset.mem_map.mp h
    exact (Finset.mem_erase.mp hx).1 (congrArg GF256.byte hx0)
  have hJ : J.card ≤ t.toNat - 1 := by
    have := Finset.card_erase_le (s := I) (a := 0)
    rw [Finset.card_map]
    omega
  obtain ⟨d, hd⟩ := PolyShare.exists_translation h0 hJ
    (fun b : Fin s.length => (⟨s[b]⟩ : GF256)) (fun b => ⟨s'[b]⟩)
  refine ⟨d, fun c => ?_⟩
  have hne' : s' ≠ [] := by
    intro h
    rw [h] at hlen
    exact hne (List.length_eq_zero_iff.mp hlen.symm)
  have hdealt := split_eq_ok hne ht htn hn c.rand.byte
  have hdealt' := split_eq_ok hne' ht htn hn (c.translate d).rand.byte
  rw [show c.rand = Rand.of c.rand.byte from rfl, hdealt,
    show (c.translate d).rand = Rand.of (c.translate d).rand.byte from rfl, hdealt']
  simp only [observe, filter_map, Function.comp_def, shareOf_index]
  refine congrArg Res.ok (map_congr_left fun i hi => ?_)
  obtain ⟨hirange, hmem⟩ := List.mem_filter.mp hi
  have hi255 : i < 255 := by have := List.mem_range.mp hirange; omega
  have hx : (⟨UInt8.ofNat (i + 1)⟩ : GF256) ∈ J :=
    Finset.mem_map.mpr ⟨_, Finset.mem_erase.mpr ⟨ofNat_succ_ne_zero hi255,
      by simpa using hmem⟩, rfl⟩
  simp only [shareOf, Share.mk.injEq, true_and]
  refine ext_getElem (by simp [hlen]) fun b hb' hb => ?_
  have hb : b < s.length := by simpa using hb
  simp only [getElem_mapIdx]
  have heval := hd (fun b j => ⟨c b j⟩) ⟨b, hb⟩ _ hx
  have hleft := gfPolyEval_drawn (c.translate d) s'[b] (UInt8.ofNat (i + 1)) ⟨b, hb⟩
  have hright := gfPolyEval_drawn c s[b] (UInt8.ofNat (i + 1)) ⟨b, hb⟩
  have h := hleft.trans (heval.trans hright.symm)
  exact GF256.mk.inj h

/-- For any two secrets of one length and fewer than `t` indices. -/
theorem split_secrecy (ht : 2 ≤ t) (htn : t ≤ n) (hn : n ≤ 255) (I : Finset UInt8)
    (hI : (I.card : Int) ≤ t - 1) (s s' : Bytes) (hlen : s'.length = s.length) :
    (∀ v : Res (List Share),
      Fintype.card {c : Choice s.length (t.toNat - 1) // observe I (split s t n c.rand) = v}
        = Fintype.card {c : Choice s.length (t.toNat - 1) // observe I (split s' t n c.rand) = v})
      ∧ (PMF.uniformOfFintype (Choice s.length (t.toNat - 1))).map
          (fun c => observe I (split s t n c.rand))
        = (PMF.uniformOfFintype (Choice s.length (t.toNat - 1))).map
          (fun c => observe I (split s' t n c.rand)) := by
  by_cases hne : s = []
  · have hs' : s' = [] := by
      rw [hne] at hlen
      exact List.length_eq_zero_iff.mp hlen
    subst hs' hne
    exact ⟨fun _ => rfl, rfl⟩
  · obtain ⟨d, hd⟩ := exists_split_translation ht htn hn hI hne hlen
    exact ⟨PolyShare.card_fiber_eq (Choice.translate_involutive d).toPerm hd,
      PolyShare.uniform_map_eq (Choice.translate_involutive d).toPerm hd⟩

theorem split_secrecy_one_share :
    (PMF.uniformOfFintype (Choice 1 1)).map (fun c => observe {2} (split [0x2a] 2 3 c.rand))
      = (PMF.uniformOfFintype (Choice 1 1)).map (fun c => observe {2} (split [0x07] 2 3 c.rand)) :=
  (split_secrecy (t := 2) (n := 3) (by decide) (by decide) (by decide) {2} (by decide)
    [0x2a] [0x07] rfl).2

end TptIdentity.Recovery
