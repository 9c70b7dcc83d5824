import Mathlib.Algebra.Order.Floor.Ring
import Mathlib.Data.Rat.Floor
import Mathlib.Tactic.Linarith
import TptIdentity.GoNet

/-!
# The rate limiter of the server

In every window of `T` seconds no address is allowed more than `capacity + rate * T` requests
(`allowed_le`), and that idle buckets are dropped changes no answer (`answers_eq_ideal`). Behind
a trusted proxy the address is one that the client writes (`clientIP_forwarded_iff`).
-/

namespace TptIdentity.Api

open Go List Function

/-! ## Buckets -/

/-- A bucket; times are in seconds, and arithmetic is exact. -/
structure Bucket where
  tokens : ℚ
  lastSeen : ℚ

abbrev Buckets := Bytes → Option Bucket

def capacity (rate : ℚ) : ℚ := ⌊rate * 2⌋

def Bucket.take (rate now : ℚ) (b : Bucket) : Bool × Bucket :=
  let tokens := min (b.tokens + (now - b.lastSeen) * rate) (capacity rate)
  if tokens < 1 then (false, ⟨tokens, now⟩) else (true, ⟨tokens - 1, now⟩)

inductive Event where
  | allow (ip : Bytes) (created now : ℚ)
  | evict (now : ℚ)

def Event.run (rate : ℚ) (buckets : Buckets) : Event → Bool × Buckets
  | .allow ip created now =>
    let r := ((buckets ip).getD ⟨capacity rate, created⟩).take rate now
    (r.1, update buckets ip (some r.2))
  | .evict now => (false, fun ip => (buckets ip).filter fun b => ¬b.lastSeen < now - 600)

/-- `evict` reads the clock before it waits for its turn. -/
def Event.time (t : ℚ) : Event → ℚ
  | .allow _ _ now => now
  | .evict now => max t now

def Event.InOrder (t : ℚ) : Event → Prop
  | .allow _ created now => t ≤ created ∧ created ≤ now
  | .evict _ => True

def InOrder : ℚ → List Event → Prop
  | _, [] => True
  | t, e :: es => e.InOrder t ∧ InOrder (e.time t) es

def Event.isIn (ip : Bytes) (lo hi : ℚ) : Event → Bool
  | .allow ip' _ now => ip' = ip ∧ lo ≤ now ∧ now ≤ hi
  | .evict _ => false

def allowed (rate : ℚ) (ip : Bytes) (lo hi : ℚ) : Buckets → List Event → Nat
  | _, [] => 0
  | buckets, e :: es =>
    (if (e.run rate buckets).1 && e.isIn ip lo hi then 1 else 0)
      + allowed rate ip lo hi (e.run rate buckets).2 es

/-! ## The potential -/

variable {now t created : ℚ} {e : Event}

section Potential

variable {rate t u : ℚ} {o : Option Bucket}

theorem capacity_nonneg (hrate : 0 ≤ rate) : 0 ≤ capacity rate := by
  unfold capacity
  exact_mod_cast Int.floor_nonneg.mpr (mul_nonneg hrate (by norm_num))

theorem capacity_le (rate : ℚ) : capacity rate ≤ rate * 2 := Int.floor_le _

def level (rate t : ℚ) : Option Bucket → ℚ
  | none => capacity rate
  | some b => min (b.tokens + (t - b.lastSeen) * rate) (capacity rate)

def Sound (t : ℚ) (o : Option Bucket) : Prop := ∀ b ∈ o, 0 ≤ b.tokens ∧ b.lastSeen ≤ t

theorem Sound.mono (h : Sound t o) (htu : t ≤ u) : Sound u o :=
  fun b hb => ⟨(h b hb).1, (h b hb).2.trans htu⟩

theorem level_le_capacity (rate t : ℚ) (o : Option Bucket) : level rate t o ≤ capacity rate := by
  cases o with
  | none => exact le_rfl
  | some b => exact min_le_right _ _

theorem level_nonneg (hrate : 0 ≤ rate) (h : Sound t o) : 0 ≤ level rate t o := by
  cases o with
  | none => exact capacity_nonneg hrate
  | some b =>
    obtain ⟨htokens, hseen⟩ := h b rfl
    have hgain := mul_nonneg (sub_nonneg.mpr hseen) hrate
    exact le_min (by linarith) (capacity_nonneg hrate)

theorem level_le_add (hrate : 0 ≤ rate) (htu : t ≤ u) (o : Option Bucket) :
    level rate u o ≤ level rate t o + (u - t) * rate := by
  have hgain := mul_nonneg (sub_nonneg.mpr htu) hrate
  cases o with
  | none => exact le_add_of_nonneg_right hgain
  | some b =>
    simp only [level]
    rw [← min_add_add_right]
    exact le_min ((min_le_left _ _).trans (by linarith)) ((min_le_right _ _).trans (by linarith))

theorem level_eq_min (hrate : 0 ≤ rate) (htu : t ≤ u) (o : Option Bucket) :
    level rate u o = min (level rate t o + (u - t) * rate) (capacity rate) := by
  have hgain := mul_nonneg (sub_nonneg.mpr htu) hrate
  cases o with
  | none => exact (min_eq_right (le_add_of_nonneg_right hgain)).symm
  | some b =>
    have hcap : capacity rate ≤ capacity rate + (u - t) * rate := le_add_of_nonneg_right hgain
    simp only [level]
    rw [← min_add_add_right, min_assoc, min_eq_right hcap]
    congr 1
    ring

theorem level_take (hrate : 0 ≤ rate) (h : Sound t o) (hcreated : t ≤ created)
    (hnow : created ≤ now) :
    ∃ r, (o.getD ⟨capacity rate, created⟩).take rate now = r ∧ Sound now (some r.2)
      ∧ (∀ u, now ≤ u → level rate u (some r.2) ≤ level rate u o)
      ∧ (r.1 = true → level rate now (some r.2) + 1 ≤ level rate now o) := by
  have hlevel : min ((o.getD ⟨capacity rate, created⟩).tokens
      + (now - (o.getD ⟨capacity rate, created⟩).lastSeen) * rate) (capacity rate)
        = level rate now o := by
    cases o with
    | none =>
      exact min_eq_right (le_add_of_nonneg_right (mul_nonneg (sub_nonneg.mpr hnow) hrate))
    | some b => rfl
  have hnonneg := level_nonneg hrate (h.mono (hcreated.trans hnow))
  have hless : ∀ x ≤ level rate now o, ∀ u, now ≤ u →
      level rate u (some ⟨x, now⟩) ≤ level rate u o := by
    intro x hx u hu
    rw [level_eq_min hrate hu o]
    exact min_le_min_right _ (by linarith)
  refine ⟨_, rfl, ?_⟩
  simp only [Bucket.take, hlevel]
  split
  · next hfew =>
    refine ⟨fun b hb => ?_, hless _ le_rfl, fun h => by cases h⟩
    obtain rfl := Option.mem_some_iff.mp hb
    exact ⟨hnonneg, le_rfl⟩
  · next hmany =>
    refine ⟨fun b hb => ?_, hless _ (by linarith), fun _ => ?_⟩
    · obtain rfl := Option.mem_some_iff.mp hb
      exact ⟨sub_nonneg.mpr (not_lt.mp hmany), le_rfl⟩
    · have hle := min_le_left (level rate now o - 1 + (now - now) * rate) (capacity rate)
      rw [sub_self, zero_mul, add_zero] at hle
      refine (add_le_add_left ?_ 1).trans_eq (sub_add_cancel _ _)
      simpa only [level, sub_self, zero_mul, add_zero] using hle

theorem level_filter (hrate : 0 ≤ rate) (h : Sound t o) (hnow : now ≤ t) :
    level rate t (o.filter fun b => ¬b.lastSeen < now - 600) = level rate t o := by
  cases o with
  | none => rfl
  | some b =>
    rw [Option.filter_some]
    split
    · rfl
    · next hold =>
      rw [decide_eq_true_eq, not_not] at hold
      have hgain : 600 * rate ≤ (t - b.lastSeen) * rate :=
        mul_le_mul_of_nonneg_right (by linarith) hrate
      refine (min_eq_right ?_).symm
      show capacity rate ≤ _
      linarith [capacity_le rate, (h b rfl).1]

end Potential

/-! ## Windows -/

variable {rate : ℚ} {ip : Bytes} {lo hi : ℚ}

theorem allowed_after : ∀ {es : List Event} {t : ℚ} (buckets : Buckets), InOrder t es → hi < t →
    allowed rate ip lo hi buckets es = 0
  | [], _, _, _, _ => rfl
  | .allow ip' created now :: es, t, buckets, horder, ht => by
    have hnow : hi < now := ht.trans_le (horder.1.1.trans horder.1.2)
    have hout : (Event.allow ip' created now).isIn ip lo hi = false := by
      simp [Event.isIn, hnow]
    rw [allowed, hout, Bool.and_false, allowed_after _ horder.2 hnow]
    rfl
  | .evict now :: es, t, buckets, horder, ht => by
    rw [allowed, allowed_after _ horder.2 (ht.trans_le (le_max_left _ _))]
    rfl

theorem Event.level_run (hrate : 0 ≤ rate) (lo hi : ℚ) {buckets : Buckets} (horder : e.InOrder t)
    (hsound : Sound t (buckets ip)) :
    t ≤ e.time t ∧ Sound (e.time t) ((e.run rate buckets).2 ip)
      ∧ (∀ u, e.time t ≤ u → level rate u ((e.run rate buckets).2 ip) ≤ level rate u (buckets ip))
      ∧ (((e.run rate buckets).1 && e.isIn ip lo hi) = true → lo ≤ e.time t ∧ e.time t ≤ hi
        ∧ level rate (e.time t) ((e.run rate buckets).2 ip) + 1
          ≤ level rate (e.time t) (buckets ip)) := by
  cases e with
  | allow ip' created now =>
    obtain ⟨hcreated, hnow⟩ := horder
    by_cases hip : ip' = ip
    · subst hip
      obtain ⟨r, hr, hsound', hless, htaken⟩ := level_take hrate hsound hcreated hnow
      simp only [run, time, hr, update_self, isIn, true_and, Bool.and_eq_true, decide_eq_true_eq]
      exact ⟨hcreated.trans hnow, hsound', hless, fun h => ⟨h.2.1, h.2.2, htaken h.1⟩⟩
    · simp only [run, time, update_of_ne (Ne.symm hip), isIn, hip, false_and,
        decide_false, Bool.and_false, Bool.false_eq_true, false_implies, and_true]
      exact ⟨hcreated.trans hnow, hsound.mono (hcreated.trans hnow), fun _ _ => le_rfl⟩
  | evict now =>
    have hsound' := hsound.mono (le_max_left t now)
    refine ⟨le_max_left t now, fun b hb => hsound' b (Option.mem_filter_iff.mp hb).1,
      fun u hu => ?_, fun h => by cases h⟩
    exact (level_filter hrate (hsound'.mono hu) ((le_max_right t now).trans hu)).le

theorem level_add_gain_nonneg (hrate : 0 ≤ rate) {b : Option Bucket} (hsound : Sound t b)
    (hhi : max t lo ≤ hi) : 0 ≤ level rate (max t lo) b + (hi - max t lo) * rate :=
  add_nonneg (level_nonneg hrate (hsound.mono (le_max_left t lo)))
    (mul_nonneg (sub_nonneg.mpr hhi) hrate)

theorem allowed_le_level (hrate : 0 ≤ rate) : ∀ {es : List Event} {t : ℚ} {buckets : Buckets},
    InOrder t es → Sound t (buckets ip) → max t lo ≤ hi →
    (allowed rate ip lo hi buckets es : ℚ)
      ≤ level rate (max t lo) (buckets ip) + (hi - max t lo) * rate
  | [], t, buckets, _, hsound, hhi => by
    exact_mod_cast level_add_gain_nonneg hrate hsound hhi
  | e :: es, t, buckets, horder, hsound, hhi => by
    obtain ⟨htime, hsound', hless, htaken⟩ :=
      e.level_run hrate lo hi horder.1 hsound
    have hlater : max t lo ≤ max (e.time t) lo := max_le_max_right lo htime
    have hrise := level_le_add hrate hlater (buckets ip)
    by_cases hend : max (e.time t) lo ≤ hi
    · have ih := allowed_le_level hrate horder.2 hsound' hend
      rw [allowed]
      split
      · next hcounted =>
        obtain ⟨hlo, -, htoken⟩ := htaken hcounted
        rw [max_eq_left hlo] at ih hrise
        push_cast
        linarith
      · have := hless _ (le_max_left (e.time t) lo)
        push_cast
        linarith
    · have hafter : hi < e.time t := by
        by_contra hle
        exact hend (max_le (not_lt.mp hle) ((le_max_right t lo).trans hhi))
      have hout : ((e.run rate buckets).1 && e.isIn ip lo hi) = false :=
        Bool.eq_false_iff.mpr fun h => absurd (htaken h).2.1 (not_le.mpr hafter)
      rw [allowed, hout, allowed_after _ horder.2 hafter]
      exact_mod_cast level_add_gain_nonneg hrate hsound hhi

/-- In a window of length `T` an address gets at most the capacity and `rate * T` requests. -/
theorem allowed_le (rate : ℚ) (hrate : 0 ≤ rate) (ip : Bytes) (start T : ℚ) (hT : 0 ≤ T)
    (first : ℚ) (es : List Event) (horder : InOrder first es) :
    (allowed rate ip start (start + T) (fun _ => none) es : ℚ) ≤ capacity rate + rate * T := by
  have hsound : Sound first none := fun b hb => by cases hb
  by_cases hend : max first start ≤ start + T
  · have hle : (allowed rate ip start (start + T) (fun _ => none) es : ℚ) ≤ _ :=
      allowed_le_level hrate horder hsound hend
    have hlevel := level_le_capacity rate (max first start) none
    have hgain : (start + T - max first start) * rate ≤ T * rate :=
      mul_le_mul_of_nonneg_right (by linarith [le_max_right first start]) hrate
    linarith
  · have hafter : start + T < first := by
      by_contra hle
      exact hend (max_le (not_lt.mp hle) (le_add_of_nonneg_right hT))
    rw [allowed_after _ horder hafter]
    exact_mod_cast add_nonneg (capacity_nonneg hrate) (mul_nonneg hrate hT)

theorem allowed_le_burst :
    let es := [.allow [] 0 0, .allow [] 0 0, .allow [] 0 0, .evict 700, .allow [] 700 700]
    allowed 1 [] 0 (0 + 0) (fun _ => none) es = 2
      ∧ (allowed 1 [] 0 (0 + 0) (fun _ => none) es : ℚ) ≤ capacity 1 + 1 * 0 :=
  ⟨by decide +kernel, allowed_le 1 (by norm_num) [] 0 0 le_rfl 0 _ (by
    norm_num [InOrder, Event.InOrder, Event.time])⟩

/-! ## The limiter without eviction -/

section Ideal

variable {rate t : ℚ} {buckets : Buckets}

def answers (rate : ℚ) : Buckets → List Event → List Bool
  | _, [] => []
  | buckets, e :: es => (e.run rate buckets).1 :: answers rate (e.run rate buckets).2 es

/-- A limiter that has a bucket for every address, full at first, and drops none. -/
def Event.ideal (rate t : ℚ) (levels : Bytes → ℚ) (e : Event) : Bool × (Bytes → ℚ) :=
  let levels ip := min (levels ip + (e.time t - t) * rate) (capacity rate)
  match e with
  | .allow ip _ _ =>
    if levels ip < 1 then (false, levels) else (true, update levels ip (levels ip - 1))
  | .evict _ => (false, levels)

def idealAnswers (rate : ℚ) : ℚ → (Bytes → ℚ) → List Event → List Bool
  | _, _, [] => []
  | t, levels, e :: es =>
    (e.ideal rate t levels).1 :: idealAnswers rate (e.time t) (e.ideal rate t levels).2 es

theorem take_eq (hrate : 0 ≤ rate) (hnow : created ≤ now) (o : Option Bucket) :
    (o.getD ⟨capacity rate, created⟩).take rate now
      = if level rate now o < 1 then (false, ⟨level rate now o, now⟩)
        else (true, ⟨level rate now o - 1, now⟩) := by
  cases o with
  | none =>
    have hgain := mul_nonneg (sub_nonneg.mpr hnow) hrate
    simp only [Option.getD_none, Bucket.take, level, min_eq_right (le_add_of_nonneg_right hgain)]
    rfl
  | some b => rfl

theorem Event.ideal_run (hrate : 0 ≤ rate) (horder : e.InOrder t)
    (hsound : ∀ ip, Sound t (buckets ip)) :
    e.ideal rate t (fun ip => level rate t (buckets ip))
      = ((e.run rate buckets).1, fun ip => level rate (e.time t) ((e.run rate buckets).2 ip)) := by
  have htime := (e.level_run hrate 0 0 horder (hsound [])).1
  unfold Event.ideal
  simp only [← level_eq_min hrate htime]
  cases e with
  | allow ip created now =>
    have hcap := level_le_capacity rate now (buckets ip)
    -- the bucket is left at the level that the answer leaves
    have hleft : ∀ x ≤ capacity rate, (fun ip' => level rate now (update buckets ip
        (some ⟨x, now⟩) ip')) = update (fun ip' => level rate now (buckets ip')) ip x := by
      intro x hx
      funext ip'
      by_cases hip : ip' = ip
      · subst hip
        simp [level, hx]
      · simp [hip]
    simp only [run, time, take_eq hrate horder.2]
    by_cases hfew : level rate now (buckets ip) < 1
    · simp only [if_pos hfew, hleft _ hcap, update_eq_self]
      exact if_pos hfew
    · simp only [if_neg hfew, hleft _ (by linarith : level rate now (buckets ip) - 1 ≤ _)]
      exact if_neg hfew
  | evict now =>
    refine Prod.ext rfl (funext fun ip => (level_filter hrate ?_ (le_max_right t now)).symm)
    exact (hsound ip).mono (le_max_left t now)

theorem answers_eq_of_level (hrate : 0 ≤ rate) : ∀ {es : List Event} {t : ℚ} {buckets : Buckets},
    InOrder t es → (∀ ip, Sound t (buckets ip)) →
    answers rate buckets es = idealAnswers rate t (fun ip => level rate t (buckets ip)) es
  | [], _, _, _, _ => rfl
  | e :: es, t, buckets, horder, hsound => by
    rw [answers, idealAnswers, e.ideal_run hrate horder.1 hsound]
    exact congrArg _ (answers_eq_of_level hrate horder.2 fun ip =>
      (e.level_run hrate 0 0 horder.1 (hsound ip)).2.1)

/-- Nobody can tell that buckets are made late and idle ones are dropped. -/
theorem answers_eq_ideal (rate : ℚ) (hrate : 0 ≤ rate) (first : ℚ) (es : List Event)
    (horder : InOrder first es) :
    answers rate (fun _ => none) es = idealAnswers rate first (fun _ => capacity rate) es :=
  answers_eq_of_level hrate horder fun _ _ hb => by cases hb

theorem answers_eq_ideal_evict :
    answers 1 (fun _ => none) [.allow [] 0 0, .evict 700, .allow [] 700 700]
      = idealAnswers 1 0 (fun _ => capacity 1) [.allow [] 0 0, .evict 700, .allow [] 700 700] :=
  answers_eq_ideal 1 (by norm_num) 0 _ (by norm_num [InOrder, Event.InOrder, Event.time])

end Ideal

/-! ## Client addresses -/

def remoteHost (remoteAddr : Bytes) : Bytes :=
  match splitHostPort remoteAddr with
  | .ok (host, _) => host
  | _ => remoteAddr

def isTrusted (trustedProxies : List (IP × Nat)) (host : Bytes) : Bool :=
  match parseIP host with
  | some ip => trustedProxies.any (blockContains · ip)
  | none => false

def clientIP (trustedProxies : List (IP × Nat)) (remoteAddr fwd : Bytes) : Bytes :=
  let ip := trimSpace ((splitN 44 2 fwd).headD [])
  if isTrusted trustedProxies (remoteHost remoteAddr) ∧ fwd ≠ [] ∧ ip ≠ [] then ip
  else remoteHost remoteAddr

def forwarded (peer : Bytes) : Option Bytes → Bytes
  | none => peer
  | some sent => sent ++ ", " ++ peer

def firstEntry (s : Bytes) : Bytes := s.takeWhile (· != 44)

theorem firstEntry_of_not_mem {s : Bytes} (h : 44 ∉ s) : firstEntry s = s :=
  List.takeWhile_eq_self_iff.mpr fun _ hc => bne_iff_ne.mpr (ne_of_mem_of_not_mem hc h)

theorem firstEntry_append {a : Bytes} (b : Bytes) (h : 44 ∉ a) : firstEntry (a ++ 44 :: b) = a := by
  rw [firstEntry, takeWhile_append_of_pos, takeWhile_cons_of_neg (by decide), append_nil]
  exact fun _ hc => bne_iff_ne.mpr (ne_of_mem_of_not_mem hc h)

theorem headD_splitN (s : Bytes) : (splitN 44 2 s).headD [] = firstEntry s := by
  unfold splitN
  by_cases hmem : 44 ∈ s
  · obtain ⟨a, b, rfl, ha⟩ := eq_append_cons_of_mem hmem
    rw [cut_append b ha, firstEntry_append b ha]
    rfl
  · cases hcut : cut 44 s with
    | none => exact (firstEntry_of_not_mem hmem).symm
    | some ab => exact absurd ((cut_eq_some.mp hcut).1 ▸ by simp) hmem

theorem firstEntry_forwarded (peer sent : Bytes) :
    firstEntry (forwarded peer (some sent)) = firstEntry sent := by
  have hfwd : forwarded peer (some sent) = sent ++ 44 :: 32 :: peer := append_assoc ..
  rw [hfwd]
  by_cases hmem : 44 ∈ sent
  · obtain ⟨a, b, rfl, ha⟩ := eq_append_cons_of_mem hmem
    rw [append_assoc, cons_append, firstEntry_append _ ha, firstEntry_append _ ha]
  · rw [firstEntry_append _ hmem, firstEntry_of_not_mem hmem]

/-- The client has no influence on its address exactly if it writes its own, or none where the proxy
is the peer. -/
theorem clientIP_forwarded_iff (trustedProxies : List (IP × Nat)) (remoteAddr peer sent : Bytes)
    (htrusted : isTrusted trustedProxies (remoteHost remoteAddr) = true)
    (hpeer : peer ≠ [] ∧ 44 ∉ peer ∧ trimSpace peer = peer) :
    clientIP trustedProxies remoteAddr (forwarded peer (some sent))
        = clientIP trustedProxies remoteAddr (forwarded peer none)
      ↔ trimSpace (firstEntry sent) = peer
        ∨ trimSpace (firstEntry sent) = [] ∧ remoteHost remoteAddr = peer := by
  obtain ⟨hne, hcomma, htrim⟩ := hpeer
  have hnone : clientIP trustedProxies remoteAddr (forwarded peer none) = peer := by
    simp only [clientIP, forwarded, headD_splitN, firstEntry_of_not_mem hcomma, htrim]
    exact if_pos ⟨htrusted, hne, hne⟩
  have hsent : forwarded peer (some sent) ≠ [] := by simp [forwarded, hne]
  rw [hnone, clientIP, headD_splitN, firstEntry_forwarded]
  by_cases hblank : trimSpace (firstEntry sent) = []
  · simp [hblank, hne.symm]
  · simp [hblank, htrusted, hsent]

theorem clientIP_spoofed :
    clientIP [([10, 0, 0, 0], 8)] "10.0.0.1:443" (forwarded "203.0.113.7" (some "198.51.100.1"))
      = "198.51.100.1"
    ∧ clientIP [([10, 0, 0, 0], 8)] "10.0.0.1:443" (forwarded "203.0.113.7" none)
      = "203.0.113.7" := by decide +kernel

theorem clientIP_forwarded_own :
    clientIP [([10, 0, 0, 0], 8)] "10.0.0.1:443"
        (forwarded "203.0.113.7" (some " 203.0.113.7 , 198.51.100.1"))
      = clientIP [([10, 0, 0, 0], 8)] "10.0.0.1:443" (forwarded "203.0.113.7" none) :=
  (clientIP_forwarded_iff _ _ _ _ (by decide +kernel) (by decide +kernel)).mpr
    (.inl (by decide +kernel))

end TptIdentity.Api
