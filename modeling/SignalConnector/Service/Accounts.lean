/-
# Adopting and linking accounts

The two places besides a receive where `ConnectorService` makes an account
row: the sync of an engine's account list and the commit of a link. Both ask
first whether a delete of the number is unfinished; the sync passes over such
a number, the commit refuses it.
-/
import SignalConnector.Runtime.Link
import SignalConnector.Store.AccountDelete

namespace SignalConnector

/-- One account of an engine's answer, with the id its row would take: the slot's, or a random one. -/
structure ListedAccount where
  number : String
  aci : Option String
  id : String
  deriving DecidableEq

namespace Database

variable (db : Database) (number proxyGroup id : String)

/-- The upsert and the identity write that sync and commit share. -/
def putAccount (linkedAt : Option ℕ) (proxyGroup id : String)
    (aci : Option String) : Except StoreError Database := do
  let (account, store) ← db.store.upsertAccountFromSignalWithId number linkedAt proxyGroup id
  .ok { db with store := store.setAccountAci account.id (aci.bind canonicalAci) }

/-- One round of the sync: a number whose delete is unfinished is not adopted. -/
def adoptAccount (listed : ListedAccount) : Except StoreError Database :=
  if (db.unfinishedAccountDeleteState listed.number).isSome then .ok db
  else db.putAccount listed.number none proxyGroup listed.id listed.aci

/-- `sync_accounts_from_numbers_with_capabilities_and_id`, up to its answer: an error ends the loop, and the
rounds before it stay. -/
def syncAccountsFromNumbers (proxyGroup : String) : List ListedAccount → Database → Database
  | [], db => db
  | listed :: rest, db =>
    match db.adoptAccount proxyGroup listed with
    | .ok db => syncAccountsFromNumbers proxyGroup rest db
    | .error _ => db

/-- What the rows answer the commit of a link with. -/
def commitStore (nowMs : ℕ) : CommitStore :=
  let upserted := (db.store.upsertAccountFromSignalWithId number (some nowMs) proxyGroup id).map fun p => p.1.id
  { unfinishedAccountDeleteState := .ok (db.unfinishedAccountDeleteState number)
    boundHere := .ok ((db.store.accountBySignal number).any fun a => a.proxyGroup = proxyGroup)
    countAccountsInGroup := .ok (db.store.listAccountsInGroup proxyGroup).length
    written := upserted.toOption
    upsertAccount := upserted
    setAccountAci := .ok ()
    accountSummary := .ok () }

/-- `complete_link_session_with_id` on the rows: a refusal leaves them as they were. -/
def completeLinkSession (lane : LinkLane) (linkSessionId number proxyGroup : String)
    (aci : Option String) (id : String) (nowMs : ℕ) : LinkLane × Database :=
  match lane.completeLinkSessionWithId linkSessionId proxyGroup nowMs (db.commitStore number proxyGroup id nowMs) with
  | (_, none, lane) => (lane, db)
  | (_, some _, lane) => (lane, (db.putAccount number (some nowMs) proxyGroup id aci).toOption.getD db)

end Database

end SignalConnector
