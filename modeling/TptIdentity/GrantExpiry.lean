import TptIdentity.ConsentModel

/-!
# Expiring grants

`migrate`, which `OpenSQLite` runs, and the first migration file both create `consent_grants`.
`ListExpiringGrants` names the column `revoked_at`, which only the table of the file has, so it
fails on every database that `OpenSQLite` created, whatever is saved in it
(`not_listed_created`). The daily check of the serve command then finds no grant.

On a table of the migration file the query runs, but it compares times as texts: the driver
stores a time with its zone offset, so the order of texts is the order of times only as long as
all of them are written in one zone.
-/

namespace TptIdentity.Consent

open Go Store List

inductive GrantTable where
  | openSQLite
  | migrations
deriving DecidableEq

def GrantTable.columns : GrantTable → List String
  | .openSQLite => ["id", "subject_did", "relying_did", "level", "scope_id", "granted_at",
      "expires_at", "explicitly_confirmed"]
  | .migrations => ["id", "subject_did", "relying_did", "level", "scope_id", "granted_at",
      "expires_at", "revoked_at", "explicitly_confirmed"]

/-- `CREATE TABLE IF NOT EXISTS` leaves an existing table alone. -/
def GrantTable.opened (existing : Option GrantTable) : GrantTable := existing.getD .openSQLite

def expiringColumns : List String :=
  ["id", "subject_did", "relying_did", "level", "scope_id", "granted_at", "expires_at",
    "explicitly_confirmed", "revoked_at"]

/-- A statement with a column that the table lacks is refused. The expiry of a row is stored as the
text `stored`, and `cutoff` is the text of now plus the window. No statement writes `revoked_at`. -/
def listExpiringGrants (table : GrantTable) (stored : GrantRow → Bytes) (cutoff : Bytes) :
    Proc DB (Res (List Grant)) :=
  .select fun db =>
    match expiringColumns.find? fun column => !table.columns.contains column with
    | some column => .err (.new "no such column: %s" [str column])
    | none =>
      .ok (((db.consentGrants.rows.filter fun r => r.expiresAt.isSome && stored r ≤ cutoff
        ).insertionSort fun a b => stored a ≤ stored b).map GrantRow.scan)

/-- The call succeeds with exactly the grants that expire by the end of the window, in order. -/
def Listed (grants : List Grant) (now within : Int) (res : Res (List Grant)) : Prop :=
  ∃ out, res = .ok out
    ∧ out.Perm (grants.filter fun g => g.expiresAt.any fun t => decide (t ≤ now + within))
    ∧ out.Pairwise fun a b => ∀ s ∈ a.expiresAt, ∀ t ∈ b.expiresAt, s ≤ t

/-- Whatever is saved in a database that `OpenSQLite` created, the call fails. -/
theorem not_listed_created (stored : GrantRow → Bytes) (cutoff : Bytes) (db : DB)
    (grants : List Grant) (now within : Int) (faults : Faults) :
    ¬Listed grants now within
      ((listExpiringGrants (.opened none) stored cutoff).run faults db).1 := by
  rintro ⟨out, hout, -⟩
  have hfails : (listExpiringGrants (.opened none) stored cutoff).wp
      (fun res _ => res ≠ .ok out) db := ⟨Res.err_ne_ok _ _, fun _ => Res.err_ne_ok _ _⟩
  exact Proc.wp_run hfails faults hout

theorem listExpiringGrants_created :
    let db := ((saveGrant Policy.Sample.onCategory).run (fun _ => none) .empty).2
    db.consentGrants.rows.map GrantRow.expiresAt = [some 100]
      ∧ ((listExpiringGrants (.opened none) (fun _ => []) []).run (fun _ => none) db).1
        = .err (.new "no such column: %s" ["revoked_at"]) := by
  decide +kernel

end TptIdentity.Consent
