import Mathlib.Data.Finset.Card
import Mathlib.Data.List.Dedup
import TptIdentity.GuardianModel
import TptIdentity.RecoverySplit

/-!
# Who gets the shares

The guardian list may name a DID twice, and every matching webhook is sent all shares
(`bounded_iff`). An account with more than 255 guardians cannot be recovered
(`enrolled_oneShareEach_iff`). Any `threshold` of the published shares give back the token
(`recovers_token`).
-/

namespace TptIdentity

open Go

variable {s : Recovery.Share} {secret : Bytes} {threshold n : Int} {rnd : Rand}
  {shares : List Recovery.Share} {token : Bytes} {cfg : Store.RecoveryConfig}

namespace Recovery

/-! ## The shares of a split are distinct -/

theorem Share.hex_index {s' : Share} (h : s.hex = s'.hex) : s.index = s'.index := by
  have hpre := (List.append_inj (List.append_inj_left h rfl) (by
    rw [length_encodeHex, length_encodeHex]; rfl)).1
  exact (List.cons.inj (encodeHex_injective hpre)).1

theorem split_index (h : split secret threshold n rnd = .ok shares) :
    shares.length = n.toNat ∧ (shares.map Share.index).Nodup := by
  obtain ⟨⟨-, -, -, hn⟩, -, rfl⟩ := split_eq_ok_iff.mp h
  rw [List.length_map, List.length_range, List.map_map]
  refine ⟨rfl, List.Nodup.map_on ?_ List.nodup_range⟩
  intro i hi j hj hij
  rw [List.mem_range] at hi hj
  have heq := congrArg UInt8.toNat hij
  simp only [Function.comp_apply, shareOf_index, UInt8.toNat_ofNat'] at heq
  omega

theorem split_hex_nodup (h : split secret threshold n rnd = .ok shares) :
    (shares.map Share.hex).Nodup := by
  have hnodup := (split_index h).2
  rw [List.Nodup, List.pairwise_map] at hnodup ⊢
  refine hnodup.imp ?_
  intro s s' hne heq
  exact hne (Share.hex_index heq)

/-! ## The text of a share -/

def parseHex (encoded : Bytes) : Res Share :=
  if encoded.length < 4 ∨ encoded[2]? ≠ some 58 then
    .err (.new "recovery: invalid share format" [])
  else
    match decodeHex (encoded.take 2) with
    | .ok [index] => do
      let val ← (decodeHex (encoded.drop 3)).wrapErr "recovery: invalid share value: %w" []
      return ⟨index, val⟩
    | _ => .err (.new "recovery: invalid share index" [])

theorem hexDigit_of_hexVal {c : UInt8} {d : Nat} (h : hexVal c = some d) :
    d < 16 ∧ hexDigit d = lowerByte c := by
  have hall : ∀ c, ∀ d ∈ hexVal c, d < 16 ∧ hexDigit d = lowerByte c :=
    forall_byte (by decide +kernel)
  exact hall c d h

theorem encodeHex_of_decodeHex {s b : Bytes} (h : decodeHex s = .ok b) :
    encodeHex b = s.map lowerByte ∧ ∀ c ∈ s, (hexVal c).isSome := by
  fun_induction decodeHex s generalizing b with
  | case1 =>
    obtain rfl := Res.ok.inj h
    exact ⟨rfl, by simp⟩
  | case2 | case3 | case4 | case5 => cases h
  | case6 c d s m n hn hm ih =>
    obtain ⟨tail, htail, h⟩ := Res.bind_eq_ok.mp h
    obtain rfl := Res.ok.inj h
    obtain ⟨hs, hall⟩ := ih htail
    obtain ⟨hm16, hc⟩ := hexDigit_of_hexVal hm
    obtain ⟨hn16, hd⟩ := hexDigit_of_hexVal hn
    have hbyte : (UInt8.ofNat (16 * m + n)).toNat = 16 * m + n := by
      rw [UInt8.toNat_ofNat']
      omega
    have hdiv : (16 * m + n) / 16 = m := by omega
    have hmod : (16 * m + n) % 16 = n := by omega
    constructor
    · rw [encodeHex, List.flatMap_cons, hbyte, hdiv, hmod, hc, hd]
      exact congrArg (lowerByte c :: lowerByte d :: ·) hs
    · simp only [List.mem_cons, forall_eq_or_imp]
      exact ⟨Option.isSome_of_mem hm, Option.isSome_of_mem hn, hall⟩

theorem exists_decodeHex {s : Bytes} (heven : 2 ∣ s.length) (h : ∀ c ∈ s, (hexVal c).isSome) :
    ∃ b, decodeHex s = .ok b := by
  fun_induction decodeHex s with
  | case1 => exact ⟨[], rfl⟩
  | case2 | case3 => simp at heven
  | case4 c d s hc => simp [hc] at h
  | case5 c d s m hd => simp [hd] at h
  | case6 c d s m n hm hn ih =>
    simp only [List.mem_cons, forall_eq_or_imp, List.length_cons] at h heven
    obtain ⟨b, hb⟩ := ih (by omega) h.2.2
    exact ⟨UInt8.ofNat (16 * m + n) :: b, by rw [hb]; rfl⟩

theorem parseHex_eq_ok {encoded : Bytes} :
    parseHex encoded = .ok s ↔ ∃ c d v, encoded = c :: d :: 58 :: v ∧ v ≠ []
      ∧ decodeHex [c, d] = .ok [s.index] ∧ decodeHex v = .ok s.value := by
  unfold parseHex
  rw [Res.ite_err_eq_ok, not_or, not_lt, not_not]
  constructor
  · rintro ⟨⟨hlen, hcolon⟩, h⟩
    rcases encoded with _ | ⟨c, _ | ⟨d, _ | ⟨e, v⟩⟩⟩
    · cases hcolon
    · cases hcolon
    · cases hcolon
    · obtain rfl := Option.some.inj hcolon
      split at h
      · next index hindex =>
        obtain ⟨value, hvalue, h⟩ := Res.bind_eq_ok.mp h
        obtain rfl := Res.ok.inj h
        refine ⟨c, d, v, rfl, ?_, hindex, Res.wrapErr_eq_ok.mp hvalue⟩
        rintro rfl
        simp at hlen
      · cases h
  · rintro ⟨c, d, v, rfl, hv, hindex, hvalue⟩
    have hlen := List.length_pos_iff.mpr hv
    refine ⟨⟨by simp only [List.length_cons]; omega, rfl⟩, ?_⟩
    simp only [List.take_succ_cons, List.take_zero, List.drop_succ_cons, List.drop_zero, hindex,
      hvalue]
    rfl

/-- `ParseHex` inverts `Hex`, and accepts nothing but the texts of shares. -/
theorem parseHex_hex :
    (∀ s : Share, s.value ≠ [] → parseHex s.hex = .ok s)
      ∧ (∀ encoded s, parseHex encoded = .ok s → s.hex = encoded.map lowerByte)
      ∧ ∀ encoded, (∃ s, parseHex encoded = .ok s) ↔ ∃ c d v, encoded = c :: d :: 58 :: v
        ∧ v ≠ [] ∧ 2 ∣ v.length ∧ ∀ x ∈ c :: d :: v, (hexVal x).isSome := by
  refine ⟨?_, ?_, ?_⟩
  · intro s hs
    exact parseHex_eq_ok.mpr ⟨_, _, _, rfl, encodeHex_ne_nil hs, decodeHex_encodeHex [s.index],
      decodeHex_encodeHex s.value⟩
  · intro encoded s h
    obtain ⟨c, d, v, rfl, -, hindex, hvalue⟩ := parseHex_eq_ok.mp h
    rw [Share.hex, (encodeHex_of_decodeHex hindex).1, (encodeHex_of_decodeHex hvalue).1]
    rfl
  · intro encoded
    constructor
    · rintro ⟨s, h⟩
      obtain ⟨c, d, v, rfl, hv, hindex, hvalue⟩ := parseHex_eq_ok.mp h
      obtain ⟨hlower, hall⟩ := encodeHex_of_decodeHex hvalue
      have hlen := congrArg List.length hlower
      rw [length_encodeHex, List.length_map] at hlen
      refine ⟨c, d, v, rfl, hv, ⟨_, hlen.symm⟩, ?_⟩
      have htwo := (encodeHex_of_decodeHex hindex).2
      rw [List.forall_mem_cons, List.forall_mem_cons] at htwo ⊢
      exact ⟨htwo.1, htwo.2.1, hall⟩
    · rintro ⟨c, d, v, rfl, hv, heven, hall⟩
      rw [List.forall_mem_cons, List.forall_mem_cons] at hall
      obtain ⟨value, hvalue⟩ := exists_decodeHex heven hall.2.2
      obtain ⟨two, htwo⟩ := exists_decodeHex (s := [c, d]) (dvd_refl 2)
        (List.forall_mem_cons.mpr ⟨hall.1, List.forall_mem_singleton.mpr hall.2.1⟩)
      have hlen := congrArg List.length (encodeHex_of_decodeHex htwo).1
      rw [length_encodeHex] at hlen
      obtain ⟨index, rfl⟩ := List.length_eq_one_iff.mp (Nat.mul_left_cancel (by decide) hlen)
      exact ⟨⟨index, value⟩, parseHex_eq_ok.mpr ⟨c, d, v, rfl, hv, htwo, hvalue⟩⟩

/-- Any `t` of the share texts, in any order, are read back and combined to the secret. -/
theorem combine_texts {t : Int} (h : split secret t n rnd = .ok shares) {texts : List Bytes}
    (htexts : texts ⊆ shares.map Share.hex) (hnodup : texts.Nodup) (hcount : t ≤ texts.length) :
    ∃ sub, List.Forall₂ (fun text s => parseHex text = .ok s) texts sub
      ∧ combine sub = .ok secret := by
  have hread : ∀ text ∈ texts, ∃ s ∈ shares, s.hex = text ∧ parseHex text = .ok s := by
    intro text htext
    obtain ⟨s, hs, rfl⟩ := List.mem_map.mp (htexts htext)
    refine ⟨s, hs, rfl, parseHex_eq_ok.mpr ⟨_, _, _, rfl, encodeHex_ne_nil ?_,
      decodeHex_encodeHex [s.index], decodeHex_encodeHex s.value⟩⟩
    obtain ⟨⟨hne, -⟩, -, rfl⟩ := split_eq_ok_iff.mp h
    obtain ⟨i, -, rfl⟩ := List.mem_map.mp hs
    simpa [shareOf] using hne
  have : Nonempty Share := ⟨⟨0, []⟩⟩
  choose! share hshare using hread
  refine ⟨texts.map share, ?_, combine_dealt h ?_ ?_ (by simpa using hcount)⟩
  · rw [List.forall₂_map_right_iff, List.forall₂_same]
    exact fun text htext => (hshare text htext).2.2
  · exact List.forall_mem_map.mpr fun text htext => (hshare text htext).1
  · rw [List.map_map]
    refine hnodup.map_on fun x hx y hy heq => ?_
    have hsame := List.inj_on_of_nodup_map (split_index h).2 (hshare x hx).1 (hshare y hy).1 heq
    rw [← (hshare x hx).2.1, ← (hshare y hy).2.1, hsame]

end Recovery

namespace Guardian

open Store Oidc Bridge Events Recovery

/-! ## Deliveries -/

def payloadField (name : String) : Value → Option Bytes
  | .obj m =>
    match assoc (str name) m with
    | some (.str s) => some s
    | _ => none
  | _ => none

def addressee (e : Events.Event) : Option Bytes := payloadField "guardian_did" e.payload

def shareIn (e : Events.Event) : Option Bytes := payloadField "share" e.payload

def sharesTo (reply : Reply) (coalition : Finset Bytes) : Finset Bytes :=
  ((reply.published.filter fun e => (addressee e).any (· ∈ coalition)).filterMap shareIn).toFinset

def sharesAt (reply : Reply) (sub : WebhookSubscription) : Finset Bytes :=
  ((reply.published.filter fun e => reply.deliveries.any fun d =>
    d.sub = sub ∧ marshal e.value = .ok d.body).filterMap shareIn).toFinset

structure Bounded (threshold : Int) (reply : Reply) : Prop where
  guardians : ∀ coalition : Finset Bytes, (coalition.card : Int) < threshold →
    ((sharesTo reply coalition).card : Int) < threshold
  subscribers : ∀ sub, ((sharesAt reply sub).card : Int) < threshold

structure Delivers (e : Events.Event) (p : Bytes × Share) : Prop where
  addressee : addressee e = some p.1
  share : shareIn e = some p.2.hex
  type : e.type = "recovery.initiated"
  supported : e.value.supported = true

variable (srv : Server)

theorem delivers_newEvent (env : Env) (reqID subjectDID guardianDID : Bytes) (share : Share) :
    Delivers (newEvent srv env "recovery.initiated"
      (sharePayload reqID subjectDID guardianDID share.hex)) (guardianDID, share) :=
  ⟨rfl, rfl, rfl, rfl⟩

theorem shareEvents_delivers (reqID subjectDID : Bytes) :
    ∀ (env : Env) (guardianDIDs : List Bytes) (shares : List Share),
      List.Forall₂ Delivers (shareEvents srv env reqID subjectDID guardianDIDs shares)
        (guardianDIDs.zip shares)
  | _, [], _ => .nil
  | _, _ :: _, [] => .nil
  | env, guardianDID :: guardianDIDs, share :: shares =>
    .cons (delivers_newEvent srv env reqID subjectDID guardianDID share)
      (shareEvents_delivers reqID subjectDID (env.drop 2) guardianDIDs shares)

variable {dealt : List (Bytes × Share)} {events : List Events.Event}

theorem delivered_events (h : List.Forall₂ Delivers events dealt) :
    ∀ e ∈ events, e.type = "recovery.initiated" ∧ e.value.supported = true := by
  induction h with
  | nil =>
    intro e he
    cases he
  | cons hd _ ih => exact List.forall_mem_cons.mpr ⟨⟨hd.type, hd.supported⟩, ih⟩

theorem filterMap_shareIn (h : List.Forall₂ Delivers events dealt) (coalition : Finset Bytes) :
    (events.filter fun e => (addressee e).any (· ∈ coalition)).filterMap shareIn
      = (dealt.filter fun p => p.1 ∈ coalition).map fun p => p.2.hex := by
  induction h with
  | nil => rfl
  | @cons e p events dealt hd _ ih =>
    by_cases hp : p.1 ∈ coalition
    · rw [List.filter_cons_of_pos (by simp [hd.addressee, hp]),
        List.filter_cons_of_pos (by simp [hp]), List.filterMap_cons_some hd.share, ih,
        List.map_cons]
    · rw [List.filter_cons_of_neg (by simp [hd.addressee, hp]),
        List.filter_cons_of_neg (by simp [hp]), ih]

theorem filterMap_shareIn_all (h : List.Forall₂ Delivers events dealt) :
    events.filterMap shareIn = dealt.map fun p => p.2.hex := by
  induction h with
  | nil => rfl
  | cons hd _ ih => rw [List.filterMap_cons_some hd.share, ih, List.map_cons]

/-! ## A recovery, started -/

def subscribers (db : DB) (eventType : Bytes) : List WebhookSubscription :=
  (db.webhookSubscriptions.rows.map WebhookRow.scan).filter (WebhookSubscription.listed eventType)

theorem run_publish_newBus {e : Events.Event} (he : e.value.supported) (db : DB) :
    (newBus.publish e).run (fun _ => none) db
      = ((subscribers db e.type).map fun sub => ⟨sub, e.value.text⟩, db) := by
  unfold Bus.publish
  rw [marshal_eq_ok he]
  rfl

theorem run_publishAll_newBus {db : DB} : ∀ {events : List Events.Event},
    (∀ e ∈ events, e.value.supported) →
    (publishAll newBus events).run (fun _ => none) db
      = (events.flatMap fun e => (subscribers db e.type).map fun sub => ⟨sub, e.value.text⟩, db)
  | [], _ => rfl
  | e :: events, h => by
    obtain ⟨he, hrest⟩ := List.forall_mem_cons.mp h
    show (newBus.publish e >>= fun started => publishAll newBus events >>= fun rest =>
      pure (started ++ rest)).run _ db = _
    rw [Proc.run_bind, run_publish_newBus he, Proc.run_bind, run_publishAll_newBus hrest]
    rfl

structure Started (cfg : RecoveryConfig) (db : DB) (shares : List Share) (reply : Reply) :
    Prop where
  length : shares.length = cfg.guardianDIDs.length
  distinct : (shares.map Share.hex).Nodup
  delivers : List.Forall₂ Delivers reply.published (cfg.guardianDIDs.zip shares)
  deliveries : reply.deliveries
    = reply.published.flatMap fun e => (subscribers db e.type).map fun sub => ⟨sub, e.value.text⟩

theorem started_publishAll (env : Env) {db db' : DB} (reqID subjectDID : Bytes)
    (response : Response)
    (hsplit : split token cfg.threshold cfg.guardianDIDs.length rnd = .ok shares)
    (hsubs : db'.webhookSubscriptions = db.webhookSubscriptions) :
    Started cfg db shares
      ((publishAll newBus (shareEvents srv env reqID subjectDID cfg.guardianDIDs shares)
          >>= fun started => pure ⟨response,
            shareEvents srv env reqID subjectDID cfg.guardianDIDs shares, started⟩).run
        (fun _ => none) db').1 := by
  have hdelivers := shareEvents_delivers srv reqID subjectDID env cfg.guardianDIDs shares
  have hsup := fun e he => (delivered_events hdelivers e he).2
  rw [Proc.run_bind, run_publishAll_newBus hsup]
  refine ⟨?_, split_hex_nodup hsplit, hdelivers, ?_⟩
  · simpa using (split_index hsplit).1
  · unfold subscribers
    rw [hsubs]
    rfl

theorem exists_started {srv : Server} {env : Env} {db : DB} {subjectDID : Bytes}
    (hcfg : (db.recoveryConfigs.find subjectDID).map RecoveryConfigRow.scan = some cfg)
    (hstarted : ((handleRecoveryInitiate srv newBus env (some subjectDID)).run
      (fun _ => none) db).1.ok) :
    ∃ shares, Started cfg db shares ((handleRecoveryInitiate srv newBus env (some subjectDID)).run
      (fun _ => none) db).1 := by
  unfold handleRecoveryInitiate at hstarted ⊢
  dsimp only at hstarted ⊢
  by_cases hs : subjectDID = []
  · rw [if_pos hs] at hstarted
    cases hstarted
  rw [if_neg hs] at hstarted ⊢
  have hget : (getRecoveryConfig subjectDID).run (fun _ => none) db = (.ok cfg, db) := by
    show (found ((db.recoveryConfigs.find subjectDID).map RecoveryConfigRow.scan), db) = _
    rw [hcfg]
    rfl
  rw [Proc.run_bind, hget] at hstarted ⊢
  dsimp only at hstarted ⊢
  -- every other outcome of the token, the split and the insertion is an error
  split at hstarted
  · split at hstarted
    · next shares hsplit =>
      rw [Proc.run_bind] at hstarted ⊢
      split at hstarted
      · exact ⟨shares, started_publishAll srv _ _ _ _ hsplit rfl⟩
      · cases hstarted
    · cases hstarted
    · cases hstarted
  · cases hstarted

/-- What a started recovery has published are shares of its token, one for each guardian. -/
def Dealt (cfg : RecoveryConfig) (env : Env) (reply : Reply) : Prop :=
  ∃ token shares, newRecoveryToken env.rand = .ok token
    ∧ split token cfg.threshold cfg.guardianDIDs.length (env.drop 1).rand = .ok shares
    ∧ List.Forall₂ Delivers reply.published (cfg.guardianDIDs.zip shares)

theorem wp_handleRecoveryInitiate {srv : Server} {bus : Bus} {env : Env} {db : DB}
    {subjectDID : Bytes}
    (hcfg : (db.recoveryConfigs.find subjectDID).map RecoveryConfigRow.scan = some cfg) :
    (handleRecoveryInitiate srv bus env (some subjectDID)).wp
      (fun reply _ => reply.ok → Dealt cfg env reply) db := by
  refine Proc.wp_ite (fun _ h => by cases h) fun _ => ?_
  refine (Proc.wp_bind ..).mpr ⟨(Proc.wp_pure ..).mpr ?_, fun e h => by cases h⟩
  dsimp only
  rw [hcfg]
  dsimp only [found]
  split
  · next token htoken =>
    split
    · next shares hsplit =>
      refine Proc.wp_seq (Proc.wp_true _ _) fun res db' _ => ?_
      split
      · refine Proc.wp_seq (Proc.wp_true _ _) fun started db'' _ _ => ?_
        exact ⟨token, shares, htoken, hsplit, shareEvents_delivers ..⟩
      · exact fun h => by cases h
    · exact fun h => by cases h
    · exact fun h => by cases h
  · exact fun h => by cases h

/-! ## Counting shares -/

section Count

variable {reply : Reply} {guardianDIDs : List Bytes} {shares : List Share} {cfg : RecoveryConfig}
  {db : DB}

theorem map_hex_zip (h : shares.length = guardianDIDs.length) :
    (guardianDIDs.zip shares).map (fun p => p.2.hex) = shares.map Share.hex := by
  conv_rhs => rw [← List.map_snd_zip h.le, List.map_map]
  rfl

namespace Started

theorem card_sharesTo (h : Started cfg db shares reply) (coalition : Finset Bytes) :
    (sharesTo reply coalition).card = (cfg.guardianDIDs.filter (· ∈ coalition)).length := by
  have hsub : List.Sublist
      (((cfg.guardianDIDs.zip shares).filter fun p => p.1 ∈ coalition).map fun p => p.2.hex)
      (shares.map Share.hex) := by
    rw [← map_hex_zip h.length]
    exact List.filter_sublist.map _
  rw [sharesTo, filterMap_shareIn h.delivers,
    List.toFinset_card_of_nodup (h.distinct.sublist hsub), List.length_map]
  have hfst : cfg.guardianDIDs = (cfg.guardianDIDs.zip shares).map Prod.fst :=
    (List.map_fst_zip h.length.ge).symm
  conv_rhs => rw [hfst, List.filter_map, List.length_map]
  rfl

theorem card_sharesAt (h : Started cfg db shares reply) {sub : WebhookSubscription}
    (hsub : sub ∈ subscribers db "recovery.initiated") :
    (sharesAt reply sub).card = cfg.guardianDIDs.length := by
  have hall : reply.published.filter (fun e => reply.deliveries.any fun d =>
      d.sub = sub ∧ marshal e.value = .ok d.body) = reply.published := by
    refine List.filter_eq_self.mpr ?_
    intro e he
    obtain ⟨htype, hsup⟩ := delivered_events h.delivers e he
    refine List.any_eq_true.mpr ⟨⟨sub, e.value.text⟩, ?_, by simp [marshal_eq_ok hsup]⟩
    rw [h.deliveries]
    exact List.mem_flatMap.mpr ⟨e, he, List.mem_map.mpr ⟨sub, htype ▸ hsub, rfl⟩⟩
  rw [sharesAt, hall, filterMap_shareIn_all h.delivers, map_hex_zip h.length,
    List.toFinset_card_of_nodup h.distinct, List.length_map, h.length]

theorem sharesAt_eq_empty (h : Started cfg db shares reply)
    (hnone : subscribers db "recovery.initiated" = []) (sub : WebhookSubscription) :
    sharesAt reply sub = ∅ := by
  have hempty : reply.deliveries = [] := by
    rw [h.deliveries]
    refine List.flatMap_eq_nil_iff.mpr ?_
    intro e he
    rw [(delivered_events h.delivers e he).1, hnone, List.map_nil]
  simp [sharesAt, hempty]

end Started

theorem length_filter_le_of_nodup (h : guardianDIDs.Nodup) (coalition : Finset Bytes) :
    (guardianDIDs.filter (· ∈ coalition)).length ≤ coalition.card := by
  rw [← List.toFinset_card_of_nodup (h.filter _)]
  refine Finset.card_le_card ?_
  intro d hd
  simpa using (List.mem_filter.mp (List.mem_toFinset.mp hd)).2

theorem exists_coalition (h : ¬guardianDIDs.Nodup) (threshold : Nat) (ht : 2 ≤ threshold)
    (hle : threshold ≤ guardianDIDs.length) :
    ∃ coalition : Finset Bytes, coalition.card < threshold
      ∧ threshold ≤ (guardianDIDs.filter (· ∈ coalition)).length := by
  obtain ⟨d, hd⟩ : ∃ d, 1 < guardianDIDs.count d := by
    by_contra hno
    simp only [not_exists, not_lt] at hno
    exact h (List.nodup_iff_count_le_one.mpr hno)
  have hmem : d ∈ guardianDIDs.toFinset :=
    List.mem_toFinset.mpr (List.count_pos_iff.mp (by omega))
  rcases Nat.lt_or_ge guardianDIDs.toFinset.card threshold with hfew | hmany
  · -- the members together are fewer than the threshold
    refine ⟨guardianDIDs.toFinset, hfew, ?_⟩
    rw [List.filter_eq_self.mpr (by simp)]
    exact hle
  · -- the repeated member with any `threshold - 2` others
    obtain ⟨coalition, hsub, hin, hcard⟩ := Finset.exists_subsuperset_card_eq
      (Finset.singleton_subset_iff.mpr hmem) (n := threshold - 1)
      (by rw [Finset.card_singleton]; omega) (by omega)
    have hd' : d ∈ coalition := hsub (Finset.mem_singleton_self d)
    refine ⟨coalition, by omega, ?_⟩
    have hset : (guardianDIDs.filter (· ∈ coalition)).toFinset = coalition := by
      ext x
      simp only [List.mem_toFinset, List.mem_filter, decide_eq_true_eq]
      exact ⟨And.right, fun hx => ⟨List.mem_toFinset.mp (hin hx), hx⟩⟩
    have hcount : ¬(guardianDIDs.filter (· ∈ coalition)).Nodup := by
      intro hnodup
      have := List.nodup_iff_count_le_one.mp hnodup d
      rw [List.count_filter (by simpa using hd')] at this
      omega
    -- a list with a repetition is longer than the set of its members
    have hlt : (guardianDIDs.filter (· ∈ coalition)).toFinset.card
        < (guardianDIDs.filter (· ∈ coalition)).length := by
      refine Nat.lt_of_le_of_ne (List.toFinset_card_le _) ?_
      intro heq
      exact hcount (Multiset.toFinset_card_eq_card_iff_nodup.mp heq)
    rw [hset] at hlt
    omega

end Count

/-! ## The bound -/

theorem enrol_accepted (env : Env) (r : Request) (req : EnrolRequest) {subjectDID : Bytes} (db : DB)
    (hsubject : srv.subjectFromBearer (param r.header "Authorization") = .ok subjectDID)
    (haccepted : req.accepted) (hutf : ∀ did ∈ req.guardianDIDs, validUtf8 did) :
    ((((handleRecoveryEnrol srv newBus env r (some req)).run (fun _ => none)
        db).2.recoveryConfigs.find subjectDID).map RecoveryConfigRow.scan)
      = some ⟨subjectDID, req.threshold, req.guardianDIDs, env.clock 1⟩ := by
  have hsave : (saveRecoveryConfig ⟨subjectDID, req.threshold, req.guardianDIDs, env.clock 0⟩
      (env.clock 1)).run (fun _ => none) db
        = (.ok (), { db with
            recoveryConfigs := db.recoveryConfigs.upsert RecoveryConfigRow.merge
              RecoveryConfigRow.subjectDID_merge
              ⟨subjectDID, req.threshold, stringsColumn req.guardianDIDs, env.clock 1⟩ }) := rfl
  unfold handleRecoveryEnrol
  rw [hsubject]
  dsimp only
  rw [haccepted, if_neg (by decide), Proc.run_bind, hsave]
  show ((Table.upsert _ _ RecoveryConfigRow.subjectDID_merge _).find subjectDID).map _ = _
  rw [Table.find_upsert, if_pos rfl]
  have hscan : ∀ did, did = subjectDID →
      RecoveryConfigRow.scan ⟨did, req.threshold, stringsColumn req.guardianDIDs, env.clock 1⟩
        = ⟨subjectDID, req.threshold, req.guardianDIDs, env.clock 1⟩ := by
    rintro _ rfl
    rw [RecoveryConfigRow.scan, unmarshalStrings_stringsColumn hutf]
  cases hold : db.recoveryConfigs.find subjectDID with
  | none => exact congrArg some (hscan _ rfl)
  | some old => exact congrArg some (hscan _ (Table.key_of_find hold))

theorem EnrolRequest.accepted_eq_true {guardianDIDs : List Bytes} :
    EnrolRequest.accepted ⟨guardianDIDs, threshold⟩
      ↔ 2 ≤ guardianDIDs.length ∧ 2 ≤ threshold ∧ threshold ≤ guardianDIDs.length := by
  simp only [EnrolRequest.accepted, Bool.not_eq_true', Bool.or_eq_false_iff,
    decide_eq_false_iff_not, not_lt, and_assoc]

/-- A coalition below the threshold gets too few shares exactly if no guardian is listed twice and
no webhook gets the event. -/
theorem bounded_iff (srv : Server) (env : Env) (db : DB) (subjectDID : Bytes) (cfg : RecoveryConfig)
    (hcfg : (db.recoveryConfigs.find subjectDID).map RecoveryConfigRow.scan = some cfg)
    (haccepted : EnrolRequest.accepted ⟨cfg.guardianDIDs, cfg.threshold⟩ = true)
    (hstarted : ((handleRecoveryInitiate srv newBus env (some subjectDID)).run
      (fun _ => none) db).1.ok = true) :
    Bounded cfg.threshold ((handleRecoveryInitiate srv newBus env (some subjectDID)).run
        (fun _ => none) db).1
      ↔ cfg.guardianDIDs.Nodup ∧ subscribers db "recovery.initiated" = [] := by
  obtain ⟨shares, hs⟩ := exists_started hcfg hstarted
  obtain ⟨-, htwo, hle⟩ := EnrolRequest.accepted_eq_true.mp haccepted
  obtain ⟨threshold, hthreshold⟩ := Int.eq_ofNat_of_zero_le (by omega : 0 ≤ cfg.threshold)
  constructor
  · intro hbound
    constructor
    · by_contra hrep
      obtain ⟨coalition, hcard, hmany⟩ := exists_coalition hrep threshold (by omega) (by omega)
      have hfew := hbound.guardians coalition (by omega)
      rw [hs.card_sharesTo] at hfew
      omega
    · refine List.eq_nil_iff_forall_not_mem.mpr ?_
      intro sub hsub
      have hfew := hbound.subscribers sub
      rw [hs.card_sharesAt hsub] at hfew
      omega
  · rintro ⟨hrep, hnone⟩
    constructor
    · intro coalition hcard
      have hle := length_filter_le_of_nodup hrep coalition
      rw [hs.card_sharesTo]
      omega
    · intro sub
      rw [hs.sharesAt_eq_empty hnone, Finset.card_empty]
      omega

namespace Sample

def server : Server where
  issuer := "https://id.example"
  apiKey := []
  bridges _ := none
  sha256 b := b
  hmacSHA256 _ b := b
  argon2IDKey _ _ _ _ _ _ := []
  lower r := r
  publicKey seed := seed
  multibaseEncode b := .ok b
  formatRFC3339 _ := []
  subjectFromBearer header := .ok header

def env : Env := ⟨.of fun _ _ => 7, fun _ => 0⟩

def request (did : Bytes) : Request where
  query := .empty
  form := none
  header := Map.empty.set "Authorization" did
  basicAuth := none
  remoteAddr := []

def enrolled (db : DB) (guardianDIDs : List Bytes) : DB :=
  ((handleRecoveryEnrol server newBus env (request "s") (some ⟨guardianDIDs, 2⟩)).run
    (fun _ => none) db).2

def initiated (db : DB) : Reply :=
  ((handleRecoveryInitiate server newBus env (some "s")).run (fun _ => none) db).1

def sub : WebhookSubscription := ⟨"w", "https://hook.example", ["*"], [], [], 0⟩

def subscribed : DB := ((saveWebhookSubscription sub).run (fun _ => none) .empty).2

end Sample

open Sample

theorem bounded_three : Bounded 2 (initiated (enrolled .empty ["a", "b", "c"])) := by
  have hcfg := enrol_accepted server env (request "s")
    ⟨["a", "b", "c"], 2⟩ .empty rfl rfl (by decide)
  refine (bounded_iff server env _ "s" _ hcfg rfl ?_).mpr
    ⟨by decide, by decide⟩
  decide

/-- A guardian named twice is sent two shares, and a subscriber to all events
is sent every share. -/
theorem not_bounded_repeated :
    ¬Bounded 2 (initiated (enrolled .empty ["a", "a", "b"]))
    ∧ ¬Bounded 2 (initiated (enrolled subscribed ["a", "b", "c"])) := by
  have htwo : (sharesTo (initiated (enrolled .empty ["a", "a", "b"]))
      {str "a"}).card = 2 := by decide
  have hall : (sharesAt (initiated (enrolled subscribed
      ["a", "b", "c"])) sub).card = 3 := by decide +kernel
  constructor
  · intro h
    have := h.guardians {str "a"} (by decide)
    omega
  · intro h
    have := h.subscribers sub
    omega

/-! ## Enrolments that no recovery can start from -/

theorem newRecoveryToken_length {rand : Rand} (h : newRecoveryToken rand = .ok token) :
    token.length = 32 := by
  obtain ⟨-, rfl⟩ := Rand.read_eq_ok.mp (Res.wrapErr_eq_ok.mp h)
  simp

def OneShareEach (cfg : RecoveryConfig) (token : Bytes) (rnd : Rand) : Prop :=
  ∃ shares, split token cfg.threshold cfg.guardianDIDs.length rnd = .ok shares
    ∧ shares.length = cfg.guardianDIDs.length

/-- An accepted guardian list gets one share each exactly if it has at most 255 entries. -/
theorem enrolled_oneShareEach_iff (srv : Server) (env : Env) (r : Request) (req : EnrolRequest)
    {subjectDID : Bytes} (db : DB)
    (hsubject : srv.subjectFromBearer (param r.header "Authorization") = .ok subjectDID)
    (haccepted : req.accepted = true) (hutf : ∀ did ∈ req.guardianDIDs, validUtf8 did = true) :
    ∃ cfg, ((getRecoveryConfig subjectDID).run (fun _ => none)
        ((handleRecoveryEnrol srv newBus env r (some req)).run (fun _ => none) db).2).1 = .ok cfg
      ∧ cfg.guardianDIDs = req.guardianDIDs
      ∧ ∀ (env' : Env) (token : Bytes), newRecoveryToken env'.rand = .ok token →
          (OneShareEach cfg token (env'.drop 1).rand ↔
            req.guardianDIDs.length ≤ 255 ∧ ∀ i < 32, (env'.drop 1).rand.fails i = none) := by
  have hcfg := enrol_accepted srv env r req db hsubject haccepted hutf
  refine ⟨⟨subjectDID, req.threshold, req.guardianDIDs, env.clock 1⟩, congrArg found hcfg, rfl,
    fun env' token htoken => ?_⟩
  have hlen := newRecoveryToken_length htoken
  have hne : token ≠ [] := by
    rintro rfl
    cases hlen
  obtain ⟨-, htwo, hle⟩ := EnrolRequest.accepted_eq_true.mp haccepted
  constructor
  · rintro ⟨shares, hsplit, -⟩
    obtain ⟨⟨-, -, -, hn⟩, hserved, -⟩ := split_eq_ok_iff.mp hsplit
    rw [hlen] at hserved
    exact ⟨by simpa using hn, hserved⟩
  · rintro ⟨hn, hserved⟩
    rw [← hlen] at hserved
    refine ⟨_, split_eq_ok_iff.mpr ⟨⟨hne, htwo, hle, by simpa using hn⟩, hserved, rfl⟩, ?_⟩
    simp

theorem enrolled_oneShareEach_three :
    ∃ cfg, ((getRecoveryConfig "s").run (fun _ => none)
        (enrolled .empty ["a", "b", "c"])).1 = .ok cfg
      ∧ OneShareEach cfg (List.replicate 32 7) (env.drop 1).rand := by
  obtain ⟨cfg, hcfg, -, h⟩ := enrolled_oneShareEach_iff server env
    (request "s") ⟨["a", "b", "c"], 2⟩ .empty rfl rfl (by decide)
  exact ⟨cfg, hcfg, (h env _ rfl).mpr ⟨by decide, fun _ _ => rfl⟩⟩

theorem enrolled_too_many :
    ((handleRecoveryEnrol server newBus env (request "s")
        (some ⟨List.replicate 256 "a", 2⟩)).run (fun _ => none) .empty).1.ok = true
      ∧ split (List.replicate 32 7) 2 256 (env.drop 1).rand
        = .err (.new "recovery: invalid parameters (threshold=%d, n=%d)" ["2", "256"])
      ∧ (initiated (enrolled .empty (List.replicate 256 "a"))).ok = false :=
  ⟨by decide +kernel, by decide, by decide +kernel⟩

/-! ## The token comes back -/

/-- The published shares, any `threshold` of them in any order, give back the recovery token,
whichever store calls fail and whoever is subscribed. -/
theorem recovers_token (srv : Server) (bus : Bus) (env : Env) (db : DB) (subjectDID : Bytes)
    (cfg : RecoveryConfig)
    (hcfg : (db.recoveryConfigs.find subjectDID).map RecoveryConfigRow.scan = some cfg)
    (faults : Faults)
    (hstarted : ((handleRecoveryInitiate srv bus env (some subjectDID)).run faults db).1.ok) :
    ∃ token, newRecoveryToken env.rand = .ok token
      ∧ ∀ texts ⊆ ((handleRecoveryInitiate srv bus env (some subjectDID)).run faults
          db).1.published.filterMap shareIn, texts.Nodup → cfg.threshold ≤ texts.length →
        ∃ sub, List.Forall₂ (fun text s => parseHex text = .ok s) texts sub
          ∧ combine sub = .ok token := by
  obtain ⟨token, shares, htoken, hsplit, hdelivers⟩ :=
    Proc.wp_run (wp_handleRecoveryInitiate hcfg) faults hstarted
  refine ⟨token, htoken, fun texts htexts hnodup hcount => ?_⟩
  have hlen : shares.length = cfg.guardianDIDs.length := by simpa using (split_index hsplit).1
  rw [filterMap_shareIn_all hdelivers, map_hex_zip hlen] at htexts
  exact combine_texts hsplit htexts hnodup hcount

open Sample in
theorem recovers_token_last_two :
    ∃ sub, List.Forall₂ (fun text s => parseHex text = .ok s)
        (((initiated (enrolled .empty ["a", "b", "c"])).published.filterMap shareIn).drop 1) sub
      ∧ combine sub = .ok (List.replicate 32 7) := by
  have hcfg := enrol_accepted server env (request "s")
    ⟨["a", "b", "c"], 2⟩ .empty rfl rfl (by decide)
  obtain ⟨token, htoken, h⟩ := recovers_token server newBus env _ "s" _ hcfg (fun _ => none) rfl
  have htoken' : newRecoveryToken env.rand = .ok (List.replicate 32 7) := rfl
  obtain rfl := Res.ok.inj (htoken'.symm.trans htoken)
  exact h _ (List.drop_subset _ _) (by decide +kernel) (by decide)

end Guardian

end TptIdentity
