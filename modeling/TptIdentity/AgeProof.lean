import TptIdentity.VcCredential

/-!
# Package vc: age proofs

`IssueAgeProof` tells of a date of birth one comparison only (`issueAgeProof_congr`). It is
right for full dates (`le_ageFromDOB_iff`); a year alone is read as its 1st of January
(`result_sound_iff`).
-/

namespace Go

instance : LE Date where
  le d d' := d.year < d'.year
    ∨ d.year = d'.year ∧ (d.month < d'.month ∨ d.month = d'.month ∧ d.day ≤ d'.day)

theorem Date.le_def {d d' : Date} : d ≤ d' ↔ d.year < d'.year
    ∨ d.year = d'.year ∧ (d.month < d'.month ∨ d.month = d'.month ∧ d.day ≤ d'.day) := Iff.rfl

instance (d d' : Date) : Decidable (d ≤ d') := decidable_of_iff _ Date.le_def.symm

end Go

namespace TptIdentity.Vc

open Go List Res

/-! ## Dates of birth -/

def dobString (claims : Map Bytes) : Bytes :=
  (([str "date_of_birth", str "dob", str "dateOfBirth", str "birthDate"].filterMap
    claims.get).find? (· ≠ [])).getD []

def parseDayMonthYear (s : Bytes) : Option Date := do
  let (day, s) ← scanUint 2 0 99 s
  let s ← scanByte 47 s
  let (month, s) ← scanUint 2 1 12 s
  let s ← scanByte 47 s
  let (year, s) ← scanUint 4 0 9999 s
  if s = [] ∧ 1 ≤ day ∧ day ≤ daysIn month year then some ⟨year, month, day⟩ else none

def parseFullDate (s : Bytes) : Option Date :=
  match scanDate s with
  | some (date, []) => some date
  | _ => parseDayMonthYear s

def parseYear (s : Bytes) : Option Int := if s.length = 4 then atoi s else none

def parseDOB (s : Bytes) : Res Date :=
  match parseFullDate s with
  | some date => .ok date
  | none =>
    match parseYear s with
    | some year => .ok ⟨year, 1, 1⟩
    | none => .err (.new "cannot parse DOB %q; expected YYYY-MM-DD" [s])

def ageFromDOB (now dob : Date) : Int :=
  let years := now.year - dob.year
  let years :=
    if now.month < dob.month ∨ now.month = dob.month ∧ now.day < dob.day then years - 1 else years
  if years < 0 then 0 else years

/-! ## The derived credential -/

structure AgeProofResult where
  credential : VerifiableCredential
  ageOver : Int
  result : Bool

def derivedClaims (threshold : Int) (result : Bool) (verifierDID : Bytes) : Map Bytes :=
  let claims := Map.empty.setAll [("age_over", itoa threshold),
    ("result", if result then "true" else "false"), ("proof_type", "derived"),
    ("method", "issuer-computed")]
  if verifierDID ≠ [] then claims.set "verifier" verifierDID else claims

structure AgeIssuer where
  issuerDID : Bytes
  issuerKey : Bytes
  keyID : Bytes
  verifierDID : Bytes

section Issue

variable (C : Crypto) (schemas : Schemas) (env : Oidc.Env)

def signAgeProof (issuer : AgeIssuer) (subjectDID : Bytes) (threshold : Int) (result : Bool) :
    Res AgeProofResult :=
  if hasPrefix issuer.issuerDID "did:key:" then .err errEphemeralIssuer
  else do
    let opts : IssueOptions := {
      issuerDID := issuer.issuerDID
      issuerKey := issuer.issuerKey
      verificationMethodID := issuer.keyID
      subjectDID := subjectDID
      schemaID := "identity.age-over-proof"
      claims := derivedClaims threshold result issuer.verifierDID
      validFor := 3600 * 1000000000
      statusListCredential := []
      statusListIndex := 0 }
    let signed ← (issue C schemas { env with clock := fun i => env.clock (i + 1) } opts).wrapErr
      "age proof: sign: %w" []
    return ⟨signed, threshold, result⟩

def today (env : Oidc.Env) (offset : Int) : Date := (Time.mk (env.clock 0) offset).date

def issueAgeProof (offset : Int) (issuer : AgeIssuer) (dobVC : VerifiableCredential)
    (threshold : Int) : Res AgeProofResult :=
  let dobStr := dobString dobVC.credentialSubject.claims
  if dobStr = [] then .err (.new "age proof: DOB credential does not contain date_of_birth" [])
  else do
    let dob ← (parseDOB dobStr).wrapErr "age proof: parse DOB: %w" []
    signAgeProof C schemas env issuer dobVC.credentialSubject.id threshold
      (threshold ≤ ageFromDOB (today env offset) dob)

end Issue

/-! ## What a result depends on -/

def isAgeOver (now : Date) (threshold : Int) (dobVC : VerifiableCredential) : Option Bool :=
  let dobStr := dobString dobVC.credentialSubject.claims
  if dobStr = [] then none
  else (parseDOB dobStr).toOption.map fun dob => decide (threshold ≤ ageFromDOB now dob)

section

variable {C : Crypto} {schemas : Schemas} {env : Oidc.Env} {offset : Int} {issuer : AgeIssuer}
  {dobVC : VerifiableCredential} {threshold : Int}

theorem issueAgeProof_of_isAgeOver {result : Bool}
    (h : isAgeOver (today env offset) threshold dobVC = some result) :
    issueAgeProof C schemas env offset issuer dobVC threshold
      = signAgeProof C schemas env issuer dobVC.credentialSubject.id threshold result := by
  unfold isAgeOver at h
  unfold issueAgeProof
  dsimp only at h ⊢
  split at h
  · cases h
  · next hdob =>
    obtain ⟨dob, hparse, rfl⟩ := Option.map_eq_some_iff.mp h
    rw [if_neg hdob, toOption_eq_some.mp hparse]
    rfl

/-- The proof depends on the date of birth through one bit only. -/
theorem issueAgeProof_congr (dobVC dobVC' : VerifiableCredential) (result : Bool)
    (hsubject : dobVC'.credentialSubject.id = dobVC.credentialSubject.id)
    (h : isAgeOver (today env offset) threshold dobVC = some result)
    (h' : isAgeOver (today env offset) threshold dobVC' = some result) :
    issueAgeProof C schemas env offset issuer dobVC' threshold
      = issueAgeProof C schemas env offset issuer dobVC threshold := by
  rw [issueAgeProof_of_isAgeOver h, issueAgeProof_of_isAgeOver h', hsubject]

/-! ## The calendar -/

/-- The `n`-th anniversary of a date, on 1 March for 29 February in common years. -/
def anniversary (dob : Date) (n : Int) : Date :=
  if dob.month = 2 ∧ dob.day = 29 ∧ ¬isLeap (dob.year + n) then ⟨dob.year + n, 3, 1⟩
  else ⟨dob.year + n, dob.month, dob.day⟩

/-- A common year has no day between 28 February and 1 March. -/
theorem anniversary_le_iff {now : Date} (hnow : now.Valid) (dob : Date) (n : Int) :
    anniversary dob n ≤ now ↔ (⟨dob.year + n, dob.month, dob.day⟩ : Date) ≤ now := by
  unfold anniversary
  split
  · next h =>
    obtain ⟨hmonth, hday, hleap⟩ := h
    have hfeb : dob.year + n = now.year → now.month = 2 → now.day ≤ 28 := by
      rintro hyear hfeb
      have hle := hnow.day_le
      rwa [hfeb, daysIn, if_pos rfl, ← hyear, if_neg hleap] at hle
    have hpos := hnow.day_pos
    rw [Date.le_def, Date.le_def, hmonth, hday]
    dsimp only
    omega
  · rfl

theorem le_ageFromDOB_iff {now : Date} (hnow : now.Valid) (dob : Date) {n : Int} (hn : 1 ≤ n) :
    n ≤ ageFromDOB now dob ↔ anniversary dob n ≤ now := by
  rw [anniversary_le_iff hnow, Date.le_def]
  unfold ageFromDOB
  dsimp only
  split <;> split <;> omega

theorem ageFromDOB_nonneg (now dob : Date) : 0 ≤ ageFromDOB now dob := by
  unfold ageFromDOB
  dsimp only
  split <;> omega

theorem ageFromDOB_mono {now now' : Date} (h : now ≤ now') (dob : Date) :
    ageFromDOB now dob ≤ ageFromDOB now' dob := by
  rw [Date.le_def] at h
  unfold ageFromDOB
  dsimp only
  split <;> split <;> split <;> split <;> omega

theorem valid_today (env : Oidc.Env) (offset : Int) : (today env offset).Valid :=
  Date.valid_ofDays _

theorem issueAgeProof_eq_ok {r : AgeProofResult}
    (h : issueAgeProof C schemas env offset issuer dobVC threshold = .ok r) :
    ∃ dob, parseDOB (dobString dobVC.credentialSubject.claims) = .ok dob
      ∧ r.result = decide (threshold ≤ ageFromDOB (today env offset) dob) := by
  unfold issueAgeProof at h
  obtain ⟨dob, hdob, h⟩ := bind_eq_ok.mp (ite_err_eq_ok.mp h).2
  obtain ⟨signed, -, h⟩ := bind_eq_ok.mp (ite_err_eq_ok.mp h).2
  obtain rfl := ok.inj h
  exact ⟨dob, wrapErr_eq_ok.mp hdob, rfl⟩

/-- The age is reached from the anniversary on. -/
theorem age_reached :
    (∀ (dob now : Date) (n : Int), now.Valid → 1 ≤ n →
      (n ≤ ageFromDOB now dob ↔ anniversary dob n ≤ now))
    ∧ ∀ (C : Crypto) (schemas : Schemas) (env env' : Oidc.Env) (offset offset' : Int)
      (issuer : AgeIssuer) (dobVC : VerifiableCredential) (threshold : Int)
      (r r' : AgeProofResult), today env offset ≤ today env' offset' →
      issueAgeProof C schemas env offset issuer dobVC threshold = .ok r →
      issueAgeProof C schemas env' offset' issuer dobVC threshold = .ok r' →
      r.result = true → r'.result = true := by
  refine ⟨fun dob now n hnow hn => le_ageFromDOB_iff hnow dob hn, ?_⟩
  intro C schemas env env' offset offset' issuer dobVC threshold r r' hlater h h' hr
  obtain ⟨dob, hdob, hresult⟩ := issueAgeProof_eq_ok h
  obtain ⟨dob', hdob', hresult'⟩ := issueAgeProof_eq_ok h'
  obtain rfl := ok.inj (hdob.symm.trans hdob')
  rw [hresult, decide_eq_true_eq] at hr
  rw [hresult', decide_eq_true_eq]
  exact hr.trans (ageFromDOB_mono hlater dob)

/-! ## Partial dates -/

/-- The dates of birth that a string stands for. -/
def StandsFor (s : Bytes) (dob : Date) : Prop :=
  match parseFullDate s with
  | some date => dob = date
  | none => dob.Valid ∧ parseYear s = some dob.year

/-- Thresholds that are not positive are always reached, also before the date of birth. -/
def Settled (s : Bytes) (threshold : Int) (now : Date) : Prop :=
  match parseFullDate s with
  | some date => 1 ≤ threshold ∨ anniversary date threshold ≤ now
  | none => ∀ year ∈ parseYear s,
    1 ≤ threshold ∧ now.year < year + threshold ∨ ⟨year + threshold, 12, 31⟩ ≤ now

theorem settled_full {now date : Date} (hnow : now.Valid) (threshold : Int) :
    (threshold ≤ ageFromDOB now date → anniversary date threshold ≤ now)
      ↔ 1 ≤ threshold ∨ anniversary date threshold ≤ now := by
  by_cases hpos : 1 ≤ threshold
  · exact iff_of_true (le_ageFromDOB_iff hnow date hpos).mp (Or.inl hpos)
  · have hage : threshold ≤ ageFromDOB now date := by
      have := ageFromDOB_nonneg now date
      omega
    rw [or_iff_right hpos]
    exact forall_prop_of_true hage

theorem settled_year {now : Date} (hnow : now.Valid) (year threshold : Int) :
    (threshold ≤ ageFromDOB now ⟨year, 1, 1⟩ →
        ∀ dob : Date, dob.Valid → dob.year = year → anniversary dob threshold ≤ now)
      ↔ 1 ≤ threshold ∧ now.year < year + threshold
        ∨ (⟨year + threshold, 12, 31⟩ : Date) ≤ now := by
  have hmonth := hnow.month_pos
  have hday := hnow.day_pos
  have hage : threshold ≤ ageFromDOB now ⟨year, 1, 1⟩
      ↔ ¬(1 ≤ threshold ∧ now.year < year + threshold) := by
    unfold ageFromDOB
    dsimp only
    split <;> split <;> omega
  rw [hage, ← imp_iff_not_or.trans (or_congr_left not_not)]
  refine imp_congr_right fun _ => ⟨fun h => ?_, fun h dob hvalid hyear => ?_⟩
  · -- the last day of the year decides
    have hlast : (⟨year, 12, 31⟩ : Date).Valid := ⟨by simp, by simp, by simp, by simp [daysIn]⟩
    exact h ⟨year, 12, 31⟩ hlast rfl
  · have hle := hvalid.day_le.trans (daysIn_le _ _)
    have hmonth' := hvalid.month_le
    rw [anniversary_le_iff hnow, Date.le_def, hyear]
    rw [Date.le_def] at h
    dsimp only at h ⊢
    omega

/-- A positive result is sound exactly if the string settles the age on that day. -/
theorem result_sound_iff (C : Crypto) (schemas : Schemas) (env : Oidc.Env) (offset : Int)
    (issuer : AgeIssuer) (dobVC : VerifiableCredential) (threshold : Int) (r : AgeProofResult)
    (h : issueAgeProof C schemas env offset issuer dobVC threshold = .ok r) :
    (r.result = true → ∀ dob, StandsFor (dobString dobVC.credentialSubject.claims) dob →
        anniversary dob threshold ≤ today env offset)
      ↔ Settled (dobString dobVC.credentialSubject.claims) threshold (today env offset) := by
  obtain ⟨dob, hdob, hresult⟩ := issueAgeProof_eq_ok h
  have hnow := valid_today env offset
  rw [hresult, decide_eq_true_eq]
  unfold StandsFor Settled
  unfold parseDOB at hdob
  split at hdob
  · next date hdate =>
    obtain rfl := ok.inj hdob
    simp only [forall_eq]
    exact settled_full hnow threshold
  · next hfull =>
    split at hdob
    · next year hyear =>
      obtain rfl := ok.inj hdob
      simp only [hyear, Option.mem_some_iff, forall_eq', Option.some_inj, and_imp]
      rw [← settled_year hnow]
      simp only [eq_comm]
    · cases hdob

end

namespace SampleAge

def schemas : Schemas where
  registry := Map.empty.set "identity.age-over-proof"
    ⟨"identity.age-over-proof", 1, "identity", false, []⟩
  validate _ _ := .ok ()

def env : Oidc.Env := ⟨.of fun _ _ => 7, fun _ => 1772323200 * 1000000000⟩

def issuer : AgeIssuer := ⟨"did:web:i", replicate 64 1, "k", []⟩

def born (dob : Bytes) : VerifiableCredential :=
  { VerifiableCredential.zero with
    credentialSubject := ⟨"did:key:z1", Map.empty.set "dob" dob⟩ }

def proof (dob : Bytes) : Res AgeProofResult :=
  issueAgeProof .standIn schemas env 0 issuer (born dob) 18

theorem exists_proof : ∃ r, proof "2008" = .ok r ∧ r.result = true := by
  have hok : ((proof "2008").toOption.map fun r => r.result) = some true := by
    decide +kernel
  obtain ⟨r, hr, hresult⟩ := Option.map_eq_some_iff.mp hok
  exact ⟨r, toOption_eq_some.mp hr, hresult⟩

end SampleAge

open SampleAge

theorem issueAgeProof_two_layouts : proof "31/12/1999" = proof "2000-02-29" :=
  issueAgeProof_congr (born "2000-02-29") (born "31/12/1999") true rfl
    (by decide +kernel) (by decide +kernel)

theorem age_reached_leap :
    (18 ≤ ageFromDOB ⟨2026, 3, 1⟩ ⟨2008, 2, 29⟩ ↔ anniversary ⟨2008, 2, 29⟩ 18 ≤ ⟨2026, 3, 1⟩)
      ∧ ∃ r, proof "2008" = .ok r ∧ r.result = true := by
  have hvalid : (⟨2026, 3, 1⟩ : Date).Valid := ⟨by decide, by decide, by decide, by decide⟩
  obtain ⟨r, hr, hresult⟩ := exists_proof
  exact ⟨age_reached.1 _ _ 18 hvalid (by decide), r, hr,
    age_reached.2 _ _ _ _ _ _ _ _ _ _ _ (by decide +kernel) hr hr hresult⟩

theorem result_early :
    (∃ r, proof "2008" = .ok r ∧ r.result = true)
      ∧ StandsFor "2008" ⟨2008, 12, 31⟩
      ∧ ¬anniversary ⟨2008, 12, 31⟩ 18 ≤ today env 0 := by
  refine ⟨exists_proof, ?_, by decide +kernel⟩
  have hfull : parseFullDate "2008" = none := by decide +kernel
  have hyear : parseYear "2008" = some 2008 := by decide +kernel
  unfold StandsFor
  rw [hfull]
  exact ⟨⟨by decide, by decide, by decide, by decide⟩, hyear⟩

theorem result_sound_early : ∃ r, proof "2008" = .ok r
    ∧ ((r.result = true → ∀ dob, StandsFor (dobString (born "2008").credentialSubject.claims)
          dob → anniversary dob 18 ≤ today env 0)
      ↔ Settled (dobString (born "2008").credentialSubject.claims) 18 (today env 0)) := by
  obtain ⟨r, hr, -⟩ := exists_proof
  exact ⟨r, hr, result_sound_iff _ _ _ _ _ _ _ r hr⟩

end TptIdentity.Vc
