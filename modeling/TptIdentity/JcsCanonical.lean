import TptIdentity.Rfc8785
import TptIdentity.TptCrypto

/-!
# JCS and RFC 8785

`json.Marshal` escapes `<`, `>`, `&`, U+2028 and U+2029 and keeps the sign of a negative zero,
and the decoder limits the nesting. `JCS` writes RFC 8785 exactly where none of this happens
(`jcs_canonical_iff`).
-/

namespace TptIdentity.Tptcrypto

open Go List Value

/-! ## JSON values -/

/-- A JSON value with ASCII keys: strings are Unicode, keys differ, integers have at most 64 bits.
-/
inductive IsJson : Value → Prop where
  | null : IsJson .null
  | bool (b : Bool) : IsJson (.bool b)
  | num (f : Float64) : IsJson (.num f)
  | int {i : Int} (hlow : -2 ^ 63 ≤ i) (hhigh : i < 2 ^ 64) : IsJson (.int i)
  | str {s : Bytes} (h : validUtf8 s = true) : IsJson (.str s)
  | arr {l : List Value} (h : ∀ v ∈ l, IsJson v) : IsJson (.arr l)
  | obj {m : List (Bytes × Value)} (hnodup : (m.map Prod.fst).Nodup)
      (hascii : ∀ e ∈ m, IsAscii e.1) (h : ∀ e ∈ m, IsJson e.2) : IsJson (.obj m)

variable {v : Value} {m : List (Bytes × Value)}

theorem IsJson.supported (h : IsJson v) : v.supported := by
  induction h with
  | null | bool | num | int | str => rfl
  | arr h ih => exact supportedElems_iff.mpr ih
  | obj hnodup hascii h ih => exact supportedMembers_iff.mpr ih

/-! ## What is read and written again -/

def reread (v : Value) : Value := v.norm.getD .null

/-- Written again the value is canonical where it is plain, and longer where it is not. -/
structure Rewritten (v : Value) : Prop where
  norm : v.norm = some (reread v)
  depth : (reread v).depth = v.depth
  grows : Grows (v.plain = true) (reread v).text v.canonical

theorem Rewritten.of_norm {w : Value} (hnorm : v.norm = some w) (hdepth : w.depth = v.depth)
    (hgrows : Grows (v.plain) w.text v.canonical) : Rewritten v := by
  have hreread : reread v = w := by rw [reread, hnorm, Option.getD_some]
  exact ⟨by rw [hreread, hnorm], by rw [hreread, hdepth], by rwa [hreread]⟩

theorem Rewritten.arr {l : List Value} (h : ∀ v ∈ l, Rewritten v) : Rewritten (.arr l) := by
  have hnorm : (Value.arr l).norm = some (.arr (l.map reread)) := by
    have helems : elemsToAny (l.map wire) = some (l.map reread) :=
      elemsToAny_eq_some.mpr (List.forall₂_map_left_iff.mpr (List.forall₂_map_right_iff.mpr
        (List.forall₂_same.mpr fun v hv => (h v hv).norm)))
    rw [Value.norm, Value.wire, wireElems_eq, Json.toAny, helems, Option.map_some]
  refine Rewritten.of_norm hnorm (congrArg (· + 1) (eq_of_forall_ge_iff fun d => ?_)) ?_
  · rw [elemsDepth_le, elemsDepth_le, forall_mem_map]
    exact forall₂_congr fun v hv => by rw [(h v hv).depth]
  · rw [text_arr, canonical, canonicalElems_eq, map_map]
    exact (((Grows.commas fun v hv => (h v hv).grows).snoc 93).cons 91).congr plainElems_iff.symm

theorem norm_obj_ascii (hascii : ∀ e ∈ m, IsAscii e.1) (h : ∀ e ∈ m, Rewritten e.2) :
    (obj m).norm = some (.obj ((assocOf m).map fun e => (e.1, reread e.2))) := by
  have hkeys : (m.map fun e => (coerce e.1, reread e.2)) = m.map fun e => (e.1, reread e.2) :=
    map_congr_left fun e he => by rw [coerce_eq_self (validUtf8_of_ascii (hascii e he))]
  have hmembers : membersToAny (m.map fun e => (coerce e.1, e.2.wire))
      = some (m.map fun e => (coerce e.1, reread e.2)) :=
    membersToAny_of_norm fun e he => Option.isSome_iff_exists.mpr ⟨_, (h e he).norm⟩
  rw [norm_obj, hmembers, hkeys, Option.map_some, assocOf_map_snd]

theorem Rewritten.obj (hnodup : (m.map Prod.fst).Nodup) (hascii : ∀ e ∈ m, IsAscii e.1)
    (h : ∀ e ∈ m, Rewritten e.2) : Rewritten (.obj m) := by
  have hmem : ∀ e, e ∈ assocOf m ↔ e ∈ m := fun e => (assocOf_perm_self hnodup hascii).mem_iff
  refine Rewritten.of_norm (norm_obj_ascii hascii h)
    (congrArg (· + 1) (eq_of_forall_ge_iff fun d => ?_)) ?_
  · rw [membersDepth_le, membersDepth_le, forall_mem_map]
    exact forall_congr' fun e => by
      rw [hmem]
      exact forall_congr' fun he => by rw [(h e he).depth]
  · have hmember : ∀ e ∈ assocOf m, Grows (plainString e.1 ∧ e.2.plain)
        (encodeString e.1 ++ 58 :: (reread e.2).text) (rfcString e.1 ++ 58 :: e.2.canonical) := by
      intro e he
      have he := (hmem e).mp he
      exact (grows_string (validUtf8_of_ascii (hascii e he))).append ((h e he).grows.cons 58)
    rw [text_obj, canonical_obj hnodup hascii, map_map]
    refine (((Grows.commas hmember).snoc 125).cons 123).congr ?_
    rw [plain, plainMembers_iff]
    exact forall_congr' fun e => by rw [hmem]

theorem IsJson.rewritten (h : IsJson v) : Rewritten v := by
  induction h with
  | null => exact .of_norm rfl rfl ((Grows.refl _).congr (by simp [plain]))
  | bool b =>
    cases b <;> exact .of_norm rfl rfl ((Grows.refl _).congr (by simp [plain]))
  | num f => exact .of_norm (@Decoded.num 0 f).norm rfl (grows_number f)
  | @int i hlow hhigh =>
    obtain ⟨f, hf, hplain⟩ := exists_parseFloat_int hlow hhigh
    have hnorm : (Value.int i).norm = some (.num f) := by
      rw [Value.norm, wire, Json.toAny, hf, Option.map_some]
    have hcanonical : (Value.int i).canonical = esNumber f := by
      rw [Value.canonical, esInt, hf]
    refine .of_norm hnorm rfl ?_
    rw [hcanonical]
    exact (grows_number f).congr (by simp [plain, hplain])
  | @str s hs =>
    refine .of_norm (norm_str s) rfl ?_
    rw [coerce_eq_self hs]
    exact grows_string hs
  | arr h ih => exact .arr ih
  | obj hnodup hascii h ih => exact .obj hnodup hascii ih

/-- The output is the canonical form exactly if no character is escaped for HTML, no number is the
negative zero and the value is not nested too deep. -/
theorem jcs_canonical_iff (h : IsJson v) :
    jcs v = .ok v.canonical ↔ v.plain = true ∧ v.depth ≤ maxNestingDepth := by
  have hv := h.rewritten
  constructor
  · intro hjcs
    obtain ⟨-, w, hw, hdec, htext⟩ := jcs_ok hjcs
    obtain rfl := Option.some.inj (hv.norm.symm.trans hw)
    exact ⟨hv.grows.eq_iff.mp htext.symm, hv.depth ▸ hdec.depth_le⟩
  · rintro ⟨hplain, hdepth⟩
    rw [jcs_eq h.supported hdepth hv.norm, hv.grows.eq hplain]

theorem jcs_canonical_sample :
    IsJson (.obj [(Go.str "to", .str (Go.str "bob")), (Go.str "sum", .int 7)])
      ∧ jcs (.obj [(Go.str "to", .str (Go.str "bob")), (Go.str "sum", .int 7)])
        = .ok (obj [(Go.str "to", .str (Go.str "bob")), (Go.str "sum", .int 7)]).canonical := by
  have h : IsJson (.obj [(Go.str "to", .str (Go.str "bob")), (Go.str "sum", .int 7)]) := by
    refine .obj (by decide) (by decide) ?_
    rw [forall_mem_cons, forall_mem_singleton]
    exact ⟨.str (by decide), .int (by decide) (by decide)⟩
  exact ⟨h, (jcs_canonical_iff h).mpr ⟨by decide, by decide⟩⟩

theorem jcs_not_canonical :
    (IsJson (.str (Go.str "<")) ∧ (str (Go.str "<")).canonical = Go.str "\"<\""
      ∧ jcs (.str (Go.str "<")) = .ok (Go.str "\"\\u003c\""))
    ∧ ∃ f : Float64, IsJson (.num f) ∧ (num f).canonical = Go.str "0"
      ∧ jcs (.num f) = .ok (Go.str "-0") := by
  refine ⟨⟨.str (by decide), rfl, ?_⟩, ?_⟩
  · have htext : (str (Go.str "<")).text = Go.str "\"\\u003c\"" := by decide
    rw [← htext]
    exact jcs_eq rfl (by decide) rfl
  · refine ⟨⟨true, 0, -1074, by decide, by decide, by decide, by decide⟩, .num _, ?_, ?_⟩
    · exact (esNumber_zero rfl).trans rfl
    · have htext := jcs_eq rfl (Nat.zero_le _) (@Decoded.num 0
        ⟨true, 0, -1074, by decide, by decide, by decide, by decide⟩).norm
      rw [htext]
      exact congrArg Res.ok (formatFloat_zero rfl)

end TptIdentity.Tptcrypto
