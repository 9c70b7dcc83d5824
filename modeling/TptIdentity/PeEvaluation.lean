import TptIdentity.PeModel

/-!
# Presentation exchange: what a definition accepts

`checkConstraints` reads the subject of a credential as its JSON object (`checkConstraints_eq`).
From this follow the outcome of `Evaluate` (`evaluate_iff`), `conjunctive_iff` and
`documentedPath_iff`.
-/

namespace TptIdentity.Pe

open Go Vc List Res

/-! ## Constraints -/

def subjectMap (s : CredentialSubject) : Map Value :=
  Map.empty.setAll (s.fields.members.map fun e => (e.1, e.2.norm.getD .null))

variable {subject : Map Value} {path : Bytes} {f : Filter} (c : Constraints)

theorem checkConstraints_eq (cred : VerifiableCredential) :
    checkConstraints c cred = checkFields (subjectMap cred.credentialSubject) c.fields := by
  generalize hs : cred.credentialSubject = s
  have hwritable := s.writable
  have hnames : s.fields.members.map (fun e => (coerce e.1, e.2.norm.getD .null))
      = s.fields.members.map fun e => (e.1, e.2.norm.getD .null) := by
    refine map_congr_left fun e he => ?_
    have hvalid : ∀ name ∈ [str "id", str "claims"], validUtf8 name = true := by decide
    rw [coerce_eq_self (hvalid _ (Fields.name_mem e he))]
  rw [CredentialSubject.value_eq] at hwritable
  have hread := unmarshalMap_text hwritable.supported
    (Nat.lt_of_lt_of_le (Nat.lt_of_succ_le hwritable.depth_le) (by decide))
    (Fields.forall_members (P := fun v => (v.norm).isSome) s.isSome_norm)
  rw [checkConstraints, hs, CredentialSubject.value_eq, marshal_eq_ok hwritable.supported,
    wrapErr_ok, ok_bind, hread, wrapErr_ok, ok_bind, hnames]
  rfl

def Leads (subject : Map Value) (filter : Option Filter) (path : Bytes) : Prop :=
  resolveJSONPath subject path ≠ .null
    ∧ ∀ f ∈ filter, applyFilter f (resolveJSONPath subject path) = .ok ()

theorem pathFound_iff {filter : Option Filter} :
    pathFound subject filter path ↔ Leads subject filter path := by
  unfold pathFound Leads
  split
  · next hnull => simp [hnull]
  · next hval =>
    have hne : resolveJSONPath subject path ≠ .null := hval
    simp [hne, Option.all_eq_true, isOk_unit]

theorem checkFields_eq_ok {fields : List Field} :
    checkFields subject fields = .ok () ↔ ∀ field ∈ fields, field.optional = false →
      ∃ path ∈ field.path, Leads subject field.filter path := by
  induction fields with
  | nil => simp [checkFields]
  | cons field fields ih =>
    have hfound : field.path.any (pathFound subject field.filter)
        ↔ ∃ path ∈ field.path, Leads subject field.filter path := by
      simp only [any_eq_true, pathFound_iff]
    rw [checkFields, forall_mem_cons, ← ih, ← hfound]
    split
    · next h => exact (and_iff_right fun hopt => h.resolve_left (by simp [hopt])).symm
    · next h =>
      refine iff_of_false (err_ne_ok _ _) fun hand => h ?_
      cases hopt : field.optional with
      | true => exact Or.inl rfl
      | false => exact Or.inr (hand.1 hopt)

theorem returns_checkConstraints (cred : VerifiableCredential) :
    (checkConstraints c cred).returns := by
  rw [checkConstraints_eq]
  induction c.fields with
  | nil => rfl
  | cons field fields ih =>
    rw [checkFields]
    split
    · exact ih
    · rfl

/-! ## Evaluation -/

def lastEntry (submission : PresentationSubmission) (id : Bytes) : Option Descriptor :=
  submission.descriptorMap.reverse.find? fun d => d.id = id

theorem get_descMap (submission : PresentationSubmission) (id : Bytes) :
    (descMap submission).get id = (lastEntry submission id).map Descriptor.path := by
  have hassoc : ∀ l : List Descriptor, assoc id (l.map fun d => (d.id, d.path))
      = (l.find? fun d => d.id = id).map Descriptor.path := by
    intro l
    induction l with
    | nil => rfl
    | cons d l ih =>
      by_cases hd : d.id = id
      · simp [assoc_cons, hd]
      · simp [assoc_cons, hd, Ne.symm hd, ih]
  rw [descMap, Map.get, Map.setAll, assoc_foldl, ← map_reverse, hassoc]
  exact Option.or_none

def Selects (submission : PresentationSubmission) (vp : VerifiablePresentation)
    (inputDesc : InputDescriptor) (cred : VerifiableCredential) : Prop :=
  ∃ d, lastEntry submission inputDesc.id = some d ∧ 0 ≤ extractArrayIndex d.path
    ∧ vp.verifiableCredential[(extractArrayIndex d.path).toNat]? = some cred

def Accepts (inputDesc : InputDescriptor) (cred : VerifiableCredential) : Prop :=
  ∀ c ∈ inputDesc.constraints, ∀ field ∈ c.fields, field.optional = false →
    ∃ path ∈ field.path, Leads (subjectMap cred.credentialSubject) field.filter path

variable {cred : VerifiableCredential}

theorem resolveCredential_eq_ok {creds : List VerifiableCredential} :
    resolveCredential creds path = .ok cred
      ↔ 0 ≤ extractArrayIndex path ∧ creds[(extractArrayIndex path).toNat]? = some cred := by
  unfold resolveCredential
  by_cases hneg : extractArrayIndex path < 0
  · simp [hneg]
  · cases hget : creds[(extractArrayIndex path).toNat]? with
    | none => simp [hneg, hget]
    | some cred' => simp [hneg, hget, not_lt.mp hneg]

section Evaluate

variable {submission : PresentationSubmission} {vp : VerifiablePresentation}
  {inputDesc : InputDescriptor}

theorem matchDescriptor_iff :
    matchDescriptor (descMap submission) vp.verifiableCredential inputDesc = .ok cred
      ↔ Selects submission vp inputDesc cred ∧ Accepts inputDesc cred := by
  rw [matchDescriptor_eq_ok, Selects, Accepts]
  simp only [get_descMap, resolveCredential_eq_ok, checkConstraints_eq, checkFields_eq_ok,
    Option.map_eq_some_iff]
  constructor
  · rintro ⟨_, ⟨d, hd, rfl⟩, hplace, haccepts⟩
    exact ⟨⟨d, hd, hplace⟩, haccepts⟩
  · rintro ⟨⟨d, hd, hplace⟩, haccepts⟩
    exact ⟨_, ⟨d, hd, rfl⟩, hplace, haccepts⟩

theorem Selects.unique {cred' : VerifiableCredential} (h : Selects submission vp inputDesc cred)
    (h' : Selects submission vp inputDesc cred') : cred = cred' := by
  obtain ⟨d, hd, -, hcred⟩ := h
  obtain ⟨d', hd', -, hcred'⟩ := h'
  obtain rfl := Option.some.inj (hd.symm.trans hd')
  exact Option.some.inj (hcred.symm.trans hcred')

theorem returns_matchDescriptor :
    (matchDescriptor (descMap submission) vp.verifiableCredential inputDesc).returns := by
  unfold matchDescriptor
  split
  · rfl
  · next path _ =>
    refine returns_bind.mpr ⟨?_, fun cred _ => ?_⟩
    · rw [returns_wrapErr, resolveCredential]
      split <;> rfl
    · split
      · rfl
      · refine returns_bind.mpr ⟨?_, fun _ _ => rfl⟩
        rw [returns_wrapErr]
        exact returns_checkConstraints _ _

theorem exists_evaluateLoop (descs : List InputDescriptor) : ∀ errors matched, ∃ out,
    evaluateLoop (descMap submission) vp.verifiableCredential descs errors matched = .ok out := by
  induction descs with
  | nil => exact fun errors matched => ⟨_, rfl⟩
  | cons inputDesc rest ih =>
    intro errors matched
    have hreturns : (matchDescriptor (descMap submission) vp.verifiableCredential
        inputDesc).returns := returns_matchDescriptor
    rw [evaluateLoop]
    cases hmatch : matchDescriptor (descMap submission) vp.verifiableCredential inputDesc with
    | ok cred => exact ih errors _
    | err e => exact ih _ matched
    | panics reason =>
      rw [hmatch] at hreturns
      cases hreturns

theorem assoc_found {descs : List InputDescriptor} {found : List VerifiableCredential}
    (hfound : List.Forall₂ (fun d cred => matchDescriptor (descMap submission)
      vp.verifiableCredential d = .ok cred) descs found)
    (hnodup : (descs.map InputDescriptor.id).Nodup) {id : Bytes} :
    assoc id ((descs.map InputDescriptor.id).zip found) = some cred
      ↔ ∃ d ∈ descs, d.id = id
        ∧ matchDescriptor (descMap submission) vp.verifiableCredential d = .ok cred := by
  induction hfound with
  | nil => simp
  | @cons d cred' descs found hd _ ih =>
    obtain ⟨hnot, hnodup⟩ := List.nodup_cons.mp hnodup
    rw [map_cons, zip_cons_cons, assoc_cons]
    by_cases hid : id = d.id
    · have hrest : ∀ d' ∈ descs, d'.id ≠ id := by
        intro d' hd' heq
        exact hnot (List.mem_map.mpr ⟨d', hd', heq.trans hid⟩)
      rw [if_pos hid]
      constructor
      · intro h
        obtain rfl := Option.some.inj h
        exact ⟨d, mem_cons_self, hid.symm, hd⟩
      · rintro ⟨d', hd', heq, hcred⟩
        rcases List.mem_cons.mp hd' with rfl | hd'
        · rw [ok.inj (hd.symm.trans hcred)]
        · exact absurd heq (hrest d' hd')
    · rw [if_neg hid, ih hnodup]
      simp [Ne.symm hid]

end Evaluate

/-- A submission is satisfied exactly if every descriptor has its own ID and a mapped credential
that meets it. -/
theorem evaluate_iff (definition : PresentationDefinition) (submission : PresentationSubmission)
    (vp : VerifiablePresentation) (hdef : submission.definitionID = definition.id) :
    ∃ result, evaluate definition submission vp = .ok result
      ∧ (result.satisfied = true
        ↔ (definition.inputDescriptors.map InputDescriptor.id).Nodup
          ∧ ∀ d ∈ definition.inputDescriptors, ∃ cred, Selects submission vp d cred
            ∧ Accepts d cred)
      ∧ (result.satisfied = true → ∀ id cred, result.matchedCredentials.get id = some cred
        ↔ ∃ d ∈ definition.inputDescriptors, d.id = id ∧ Selects submission vp d cred) := by
  obtain ⟨result, hresult⟩ : ∃ result, evaluate definition submission vp = .ok result := by
    obtain ⟨out, hout⟩ := exists_evaluateLoop definition.inputDescriptors [] .empty
    rw [evaluate, if_neg (not_not.mpr hdef), hout]
    exact ⟨_, rfl⟩
  refine ⟨result, hresult, ?_, ?_⟩
  · constructor
    · intro hsat
      obtain ⟨-, hnodup, found, hfound, -⟩ := evaluate_eq_satisfied.mp ⟨hresult, hsat⟩
      refine ⟨hnodup, fun d hd => ?_⟩
      obtain ⟨cred, hcred⟩ := exists_forall₂_iff.mp ⟨found, hfound⟩ d hd
      exact ⟨cred, matchDescriptor_iff.mp hcred⟩
    · rintro ⟨hnodup, hdescs⟩
      simp only [← matchDescriptor_iff] at hdescs
      obtain ⟨found, hfound⟩ := exists_forall₂_iff.mpr hdescs
      obtain ⟨hresult', hsat⟩ := evaluate_eq_satisfied.mpr ⟨hdef, hnodup, found, hfound, rfl⟩
      exact ok.inj (hresult'.symm.trans hresult) ▸ hsat
  · intro hsat id cred
    obtain ⟨-, hnodup, found, hfound, rfl⟩ := evaluate_eq_satisfied.mp ⟨hresult, hsat⟩
    have hkeys : (((definition.inputDescriptors.map InputDescriptor.id).zip found).map
        Prod.fst).Nodup := by
      rwa [map_fst_zip (by simp [hfound.length_eq])]
    have hget : (Map.empty.setAll ((definition.inputDescriptors.map InputDescriptor.id).zip
        found)).get id = assoc id ((definition.inputDescriptors.map InputDescriptor.id).zip
          found) := by
      rw [Map.get, Map.setAll, assoc_foldl_of_nodup hkeys]
      exact Option.or_none
    rw [hget, assoc_found hfound hnodup]
    refine exists_congr fun d => and_congr_right fun hd => and_congr_right fun _ => ?_
    rw [matchDescriptor_iff, and_iff_left_iff_imp]
    intro hselects
    obtain ⟨cred', hcred'⟩ := exists_forall₂_iff.mp ⟨found, hfound⟩ d hd
    obtain ⟨hselects', haccepts⟩ := matchDescriptor_iff.mp hcred'
    exact hselects.unique hselects' ▸ haccepts

theorem evaluate_sample : ∃ result, evaluate SampleSubmission.body.definition
    SampleSubmission.body.submission SampleSubmission.body.presentation = .ok result
      ∧ result.satisfied = true
      ∧ result.matchedCredentials.get "i" = some SampleSubmission.forged := by
  obtain ⟨result, hresult, -, hmatched⟩ := evaluate_iff SampleSubmission.body.definition
    SampleSubmission.body.submission SampleSubmission.body.presentation rfl
  obtain ⟨result', hresult', hsat⟩ := (evaluate_satisfied (by decide)).mpr
    SampleSubmission.satisfies_body
  obtain rfl := ok.inj (hresult.symm.trans hresult')
  exact ⟨result, hresult, hsat, (hmatched hsat _ _).mpr ⟨_, mem_singleton_self _, rfl,
    ⟨"i", "$.verifiableCredential[0]"⟩, rfl, by decide, rfl⟩⟩

/-! ## Filters -/

structure Meets (f : Filter) (val : Value) : Prop where
  const : ∀ c ∈ f.const, jsonEqual val c = true
  enum : f.enum ≠ [] → ∃ e ∈ f.enum, jsonEqual val e = true
  pattern : f.pattern ≠ [] → ∃ s, val = .str s ∧ matchesPattern f.pattern s = true

variable {val : Value}

theorem applyPattern_eq_ok : applyPattern f val = .ok ()
    ↔ (f.pattern ≠ [] → ∃ s, val = .str s ∧ matchesPattern f.pattern s) := by
  unfold applyPattern
  by_cases hpattern : f.pattern = []
  · simp [hpattern]
  · rw [if_neg hpattern]
    cases val with
    | str s => simp [hpattern]
    | _ => simp [hpattern]

theorem applyFilter_eq_ok : applyFilter f val = .ok ()
    ↔ (∀ c ∈ f.const, jsonEqual val c)
      ∧ (f.enum = [] ∧ applyPattern f val = .ok () ∨ ∃ e ∈ f.enum, jsonEqual val e) := by
  have hconst : (f.const.any fun c => !jsonEqual val c)
      ↔ ¬∀ c ∈ f.const, jsonEqual val c := by
    simp [Option.any_eq_true]
  rw [applyFilter, ite_err_eq_ok, hconst, not_not]
  refine and_congr_right fun _ => ?_
  by_cases henum : f.enum = []
  · simp [henum]
  · rw [if_neg henum]
    split
    · next h => simpa [henum] using h
    · next h => simpa [henum] using h

theorem Meets.applyFilter_eq (h : Meets f val) : applyFilter f val = .ok () := by
  refine applyFilter_eq_ok.mpr ⟨h.const, ?_⟩
  by_cases henum : f.enum = []
  · exact Or.inl ⟨henum, applyPattern_eq_ok.mpr h.pattern⟩
  · exact Or.inr (h.enum henum)

structure Extends (f f' : Filter) : Prop where
  const : f.const = none ∨ f'.const = f.const
  enum : f.enum = [] ∨ f'.enum = f.enum
  pattern : f.pattern = [] ∨ f'.pattern = f.pattern

theorem Meets.of_extends {f' : Filter} (h : Meets f' val) (hext : Extends f f') :
    Meets f val where
  const c hc := by
    rcases hext.const with hnone | heq
    · simp [hnone] at hc
    · exact h.const c (heq ▸ hc)
  enum hne := by
    have heq := hext.enum.resolve_left hne
    rw [← heq] at hne ⊢
    exact h.enum hne
  pattern hne := by
    have heq := hext.pattern.resolve_left hne
    rw [← heq] at hne ⊢
    exact h.pattern hne

/-- The filter meets all its keywords, and accepts nothing more than with fewer. -/
structure Conjunctive (f : Filter) : Prop where
  meets : ∀ val, applyFilter f val = .ok () → Meets f val
  fewer : ∀ f₀, Extends f₀ f → ∀ (before after : List Field) (path : List Bytes) (optional : Bool)
    (cred : VerifiableCredential),
    checkConstraints ⟨before ++ ⟨path, some f, optional⟩ :: after⟩ cred = .ok () →
    checkConstraints ⟨before ++ ⟨path, some f₀, optional⟩ :: after⟩ cred = .ok ()

/-- A filter is a conjunction for a value exactly if the enum does not bypass the pattern. -/
theorem conjunctive_iff (f : Filter) : Conjunctive f
    ↔ ∀ val, (∀ c ∈ f.const, jsonEqual val c = true) → (∃ e ∈ f.enum, jsonEqual val e = true) →
      f.pattern ≠ [] → ∃ s, val = .str s ∧ matchesPattern f.pattern s = true := by
  constructor
  · intro h val hconst henum
    exact (h.meets val (applyFilter_eq_ok.mpr ⟨hconst, Or.inr henum⟩)).pattern
  · intro h
    have hmeets : ∀ val, applyFilter f val = .ok () → Meets f val := by
      intro val hval
      obtain ⟨hconst, ⟨hnil, hpattern⟩ | henum⟩ := applyFilter_eq_ok.mp hval
      · exact ⟨hconst, fun hne => absurd hnil hne, applyPattern_eq_ok.mp hpattern⟩
      · exact ⟨hconst, fun _ => henum, h val hconst henum⟩
    refine ⟨hmeets, fun f₀ hext before after path optional cred hcheck => ?_⟩
    rw [checkConstraints_eq, checkFields_eq_ok, forall_mem_append, forall_mem_cons] at hcheck ⊢
    obtain ⟨hbefore, hfield, hafter⟩ := hcheck
    refine ⟨hbefore, fun hopt => ?_, hafter⟩
    obtain ⟨p, hp, hne, hfilter⟩ := hfield hopt
    refine ⟨p, hp, hne, fun f' hf' => ?_⟩
    obtain rfl := Option.some.inj hf'
    exact ((hmeets _ (hfilter f rfl)).of_extends hext).applyFilter_eq

theorem enum_skips_pattern :
    applyFilter ⟨"^MD$", none, []⟩ (.str "PhD") ≠ .ok ()
      ∧ applyFilter ⟨"^MD$", none, [.str "PhD"]⟩ (.str "PhD") = .ok () := by
  decide +kernel

/-! ## Paths -/

theorem resolveJSONPath_credentialSubject (s : CredentialSubject) {k : Bytes} (hk : 46 ∉ k) :
    resolveJSONPath (subjectMap s) (str "$.credentialSubject." ++ k) = .null := by
  have hnone : (subjectMap s).get (str "credentialSubject") = none := by
    rw [subjectMap, Map.get_setAll_of_not_mem, Map.get_empty]
    rw [map_map]
    intro hmem
    obtain ⟨e, he, hname⟩ := List.mem_map.mp hmem
    have hnames : str "credentialSubject" ∈ [str "id", str "claims"] :=
      hname ▸ Fields.name_mem e he
    exact absurd hnames (by decide)
  have hsplit : str "$.credentialSubject." ++ k
      = str "$." ++ (str "credentialSubject" ++ 46 :: k) := by
    have hname : str "$.credentialSubject." = str "$." ++ (str "credentialSubject" ++ [46]) := by
      decide
    rw [hname]
    simp
  have htrim : trimPrefix (str "credentialSubject" ++ 46 :: k) (str "$")
      = str "credentialSubject" ++ 46 :: k := rfl
  rw [resolveJSONPath, hsplit, trimPrefix_append, htrim,
    splitOn_append_cons_self_of_not_mem (by decide), splitOn_eq_singleton hk]
  simp only [resolveParts]
  rw [if_neg (by decide), show assoc (str "credentialSubject") (subjectMap s).entries = none from
    hnone]
  simp

/-- The documented path works for a name exactly if it is no claim: it finds none. -/
theorem documentedPath_iff (cred : VerifiableCredential) (k : Bytes) (hk : 46 ∉ k) :
    (checkConstraints ⟨[⟨["$.credentialSubject." ++ k], none, false⟩]⟩ cred = .ok ()
      ↔ (cred.credentialSubject.claims.get k).isSome = true)
    ↔ cred.credentialSubject.claims.get k = none := by
  have hfails : checkConstraints ⟨[⟨["$.credentialSubject." ++ k], none, false⟩]⟩ cred
      ≠ .ok () := by
    rw [checkConstraints_eq, Ne, checkFields_eq_ok]
    intro h
    obtain ⟨path, hpath, hne, -⟩ := h _ mem_cons_self rfl
    rw [List.mem_singleton.mp hpath] at hne
    exact hne (resolveJSONPath_credentialSubject _ hk)
  rw [iff_false_left hfails, Bool.not_eq_true, Option.isSome_eq_false_iff,
    Option.isNone_iff_eq_none]

theorem documentedPath_name :
    checkConstraints ⟨[⟨["$.credentialSubject.name"], none, false⟩]⟩ SampleSubmission.forged
        = .ok ()
      ↔ (SampleSubmission.forged.credentialSubject.claims.get "name").isSome = true :=
  (documentedPath_iff SampleSubmission.forged "name" (by decide)).mpr (by decide)

theorem documentedPath_degree :
    SampleSubmission.forged.credentialSubject.claims.get "degree" = some (str "MD")
      ∧ checkConstraints ⟨[⟨["$.credentialSubject.degree"], none, false⟩]⟩
        SampleSubmission.forged ≠ .ok ()
      ∧ checkConstraints ⟨[⟨["$.claims.degree"], none, false⟩]⟩
        SampleSubmission.forged = .ok () := by
  decide +kernel

end TptIdentity.Pe
