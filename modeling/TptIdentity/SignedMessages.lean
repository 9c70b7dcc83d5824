import TptIdentity.Oid4vpModel
import TptIdentity.SdJwtModel

/-!
# What the key signs

`Minted` lists everything that is ever signed with the key of the provider. The answers of the
endpoints that do not touch the database have nothing else signed (`AllMinted`).
-/

namespace TptIdentity.Oidc

open Go Store Proc

/-! ## Signing outside the package -/

def sdJwtHeader (keyID : Bytes) : Bytes :=
  encodeB64 (Value.obj (((Map.empty.set "alg" (.str "EdDSA")).set
    "typ" (.str "vc+sd-jwt")).set "kid" (.str keyID)).entries).text

def Provider.signSDJWT (p : Provider) (claims : Map Value) : Res SignedToken := do
  let token ← Vc.signSDJWT ⟨p.sha256, p.ed25519⟩ claims p.signingKey p.keyID "vc+sd-jwt"
  return ⟨.sdJwt, [], [], sdJwtHeader p.keyID ++ 46 :: encodeB64 (Value.obj claims.entries).text,
    token⟩

structure ProofHash where
  bytes : Bytes
  length_bytes : bytes.length = 64

def Provider.signProof (p : Provider) (hash : ProofHash) : Res SignedToken := do
  let sig ← p.ed25519.signWith p.signingKey hash.bytes
  return ⟨.proof, [], [], hash.bytes, sig⟩

def noContent : Answer := { response := .text 204 [] }

def signedOnly : Res SignedToken → Answer
  | .ok t => { noContent with signed := [t] }
  | _ => { response := internalError }

/-! ## Everything that is signed -/

def extraNames : List Bytes := ["acr", "act", "aud", "scope"]

inductive Minted (p : Provider) : SignedToken → Prop where
  | idToken {now ttl : Int} {subject audience nonce : Bytes} {t : SignedToken}
      (h : issueIDToken p now subject audience nonce ttl none = .ok t) : Minted p t
  | accessToken {grant : Grant} {now ttl : Int} {subject audience : Bytes} {t : SignedToken}
      (h : issueAccessToken p grant now subject audience ttl = .ok t) : Minted p t
  | extended {grant : Grant} {now ttl : Int} {subject audience : Bytes} {extra : Map Value}
      {t : SignedToken} (hextra : ∀ k v, extra.get k = some v → k ∈ extraNames)
      (h : issueJWTWithExtra p (.access grant) now subject audience ttl extra = .ok t) : Minted p t
  | logoutToken {now : Int} {subject audience jti : Bytes} {t : SignedToken}
      (h : p.sign .logoutToken subject audience (logoutClaims p now subject audience jti) = .ok t) :
      Minted p t
  | requestObject {now ttl : Int} {pReq : OID4VPRequest} {t : SignedToken}
      (h : issueJWTWithExtra p .requestObject now pReq.clientID p.issuer ttl pReq.extra = .ok t) :
      Minted p t
  | sdJwt {claims : Map Value} {t : SignedToken} (h : p.signSDJWT claims = .ok t) : Minted p t
  | proof {hash : ProofHash} {t : SignedToken} (h : p.signProof hash = .ok t) : Minted p t

def AllMinted (p : Provider) (a : Answer) : Prop := ∀ t ∈ a.signed, Minted p t

section Minted

variable {p : Provider} {env : Env} {r : Request} {form : Map Bytes}

theorem allMinted_of_none {a : Answer} (h : a.signed = []) : AllMinted p a := by
  intro t ht
  rw [h] at ht
  cases ht

theorem allMinted_singleton (response : Response) {t : SignedToken} (h : Minted p t) :
    AllMinted p ⟨response, [t]⟩ := by
  intro t' ht'
  rwa [List.mem_singleton.mp ht']

theorem does_none {W R : DB → DB → Prop} {a : Answer} (h : a.signed = []) :
    (pure a : Proc DB Answer).Does W R (AllMinted p) := does_pure (allMinted_of_none h)

def PlainExtra (extra : Map Value) : Prop :=
  ∀ k v, extra.get k = some v → k ∈ extraNames ∧ v.depth ≤ 1 ∧ (k ≠ "act" → ∃ s, v = .str s)

theorem plainExtra_empty : PlainExtra .empty := by
  intro k v h
  cases h

theorem PlainExtra.set_str {extra : Map Value} (h : PlainExtra extra) {name : Bytes}
    (hname : name ∈ extraNames) (s : Bytes) : PlainExtra (extra.set name (.str s)) := by
  intro k v hv
  rw [Map.get_set] at hv
  split at hv
  · next hk =>
    obtain rfl := Option.some.inj hv
    exact ⟨hk ▸ hname, Nat.zero_le 1, fun _ => ⟨s, rfl⟩⟩
  · exact h k v hv

theorem PlainExtra.set_act {extra : Map Value} (h : PlainExtra extra) (sub : Bytes) :
    PlainExtra (extra.set "act" (.obj [("sub", .str sub)])) := by
  intro k v hv
  rw [Map.get_set] at hv
  split at hv
  · next hk =>
    obtain rfl := Option.some.inj hv
    exact ⟨hk ▸ (by decide), le_rfl, fun hne => absurd hk hne⟩
  · exact h k v hv

theorem plainExtra_exchangeExtra {now : Int} {audience scope actorToken caller : Bytes} :
    PlainExtra (exchangeExtra p now audience scope actorToken caller) := by
  have haud := plainExtra_empty.set_str (show str "aud" ∈ extraNames by decide) audience
  have hscope : PlainExtra (if scope = [] then (Map.empty : Map Value).set "aud"
      (.str audience) else (Map.empty.set "aud" (.str audience)).set "scope"
      (.str scope)) := by
    split
    · exact haud
    · exact haud.set_str (by decide) scope
  unfold exchangeExtra
  dsimp only
  split
  · split
    · exact hscope.set_act _
    · exact hscope
  · split
    · exact hscope.set_act _
    · exact hscope

theorem plainExtra_stepUp (acr scope : Bytes) :
    PlainExtra ((Map.empty.set "acr" (.str acr)).set "scope" (.str scope)) :=
  (plainExtra_empty.set_str (by decide) acr).set_str (by decide) scope

theorem allMinted_exchangeToken (claims : Claims) (caller : Bytes) :
    AllMinted p (exchangeToken p env form claims caller) := by
  unfold exchangeToken
  dsimp only
  split
  · exact allMinted_of_none rfl
  · split
    · next haccess =>
      exact allMinted_singleton _
        (.extended (fun k v h => (plainExtra_exchangeExtra k v h).1) haccess)
    · exact allMinted_of_none rfl

theorem allMinted_userinfoHandler : AllMinted p (userinfoHandler p env r) := by
  refine allMinted_of_none ?_
  unfold userinfoHandler
  dsimp only
  split
  · rfl
  · split <;> rfl

theorem allMinted_stepUpHandler : AllMinted p (stepUpHandler p env r) := by
  unfold stepUpHandler
  dsimp only
  generalize (if param r.query "access_token" = [] then _ else _ : Bytes) = bearer
  split
  · exact allMinted_of_none rfl
  · split
    · split
      · exact allMinted_of_none rfl
      · split
        · split
          · next haccess =>
            exact allMinted_singleton _
              (.extended (fun k v h => (plainExtra_stepUp _ _ k v h).1) haccess)
          · exact allMinted_of_none rfl
        · exact allMinted_of_none rfl
    · exact allMinted_of_none rfl
    · exact allMinted_of_none rfl

theorem allMinted_introspectHandler (m : Map Int) :
    AllMinted p (introspectHandler p env r m).1 := by
  refine allMinted_of_none ?_
  unfold introspectHandler
  split
  · rfl
  · dsimp only
    split
    · rfl
    · split
      · split
        · rfl
        · split <;> rfl
      · rfl

theorem allMinted_createRequestHandler (body : Option CreateRequest) (s : OID4VPStore) :
    AllMinted p (createRequestHandler p env body s).1 := by
  refine allMinted_of_none ?_
  unfold createRequestHandler
  split
  · rfl
  · split <;> rfl

theorem allMinted_getRequestHandler (env : Env) (id : Bytes) (s : OID4VPStore) :
    AllMinted p (getRequestHandler p env id s) := by
  unfold getRequestHandler
  split
  · exact allMinted_of_none rfl
  · split
    · exact allMinted_of_none rfl
    · split
      · next hsigned => exact allMinted_singleton _ (.requestObject hsigned)
      · exact allMinted_of_none rfl

theorem allMinted_postResponseHandler (s : OID4VPStore) :
    AllMinted p (postResponseHandler p env r s).1 := by
  refine allMinted_of_none ?_
  unfold postResponseHandler
  split
  · rfl
  · dsimp only
    split <;> rfl

theorem allMinted_getResponseHandler (id : Bytes) (s : OID4VPStore) :
    AllMinted p (getResponseHandler p id s) := by
  refine allMinted_of_none ?_
  unfold getResponseHandler
  split <;> rfl

theorem allMinted_signedOnly {res : Res SignedToken} (h : ∀ t, res = .ok t → Minted p t) :
    AllMinted p (signedOnly res) := by
  cases res with
  | ok t => exact allMinted_singleton _ (h t rfl)
  | err e => exact allMinted_of_none rfl
  | panics reason => exact allMinted_of_none rfl

end Minted

end TptIdentity.Oidc
