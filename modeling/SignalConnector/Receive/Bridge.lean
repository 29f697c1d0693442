/-
# Group traffic and the identity bridge

`peer_identities` maps an ACI to the peer key its owner's direct conversation
has. An ingest writes it for every incoming row whose ACI differs from the peer
key of the conversation, and for a group that key is the group's id: the row
that knew the sender's number is replaced by one that names a group.
-/
import SignalConnector.Lib.Run
import SignalConnector.Receive.Frame
import SignalConnector.Receive.Retry

namespace SignalConnector

open Store

namespace Ingest

/-- An envelope, and what its ingest reads. -/
abbrev Arrival := IngestEnv × NormalizedReceive

variable (s : Service)

/-- The service after an ingest, also after a failed one. -/
def receiveStep (e : Arrival) : Service := ((ingestReceive e.1 e.2).run s).2

/-- The id of the account the ingest works for. -/
def receivingId (env : IngestEnv) (r : NormalizedReceive) (s : Store) : Option String :=
  (receiveTarget env r s).map fun signalAccount =>
    ((s.accountBySignal signalAccount).map AccountRow.id).getD env.accountId

/-! ### What is to be kept -/

/-- Every row that is new maps an ACI to the peer key of a direct envelope, never to a group's id. -/
def BridgesDirect (e : Arrival) : Prop :=
  ∀ row ∈ (receiveStep s e).store.peerIdentities.rows, row ∈ s.store.peerIdentities.rows ∨
    ∃ key title, e.2.conversationOf = some (.direct, key, title) ∧ row.peerKey = key

/-- A group envelope leaves the spellings its sender is known under, and so the direct conversations that take their
receipts. -/
def SparesSender (e : Arrival) : Prop :=
  ∀ group title aci, e.2.conversationOf = some (.group, group, title) → e.2.sourceUuid = some aci →
    ∀ accountId number, (⟨accountId, aci, number⟩ : PeerIdentityRow) ∈ s.store.peerIdentities.rows →
      (∀ key ∈ [number, aci], (receiveStep s e).store.peerIdentitySet accountId key =
        s.store.peerIdentitySet accountId key) ∧
      ∀ c : ConversationRow, c.kind = .direct → ∀ recipient ∈ [number, aci],
        (receiveStep s e).store.qualifies accountId recipient c = s.store.qualifies accountId recipient c

def BridgeKept (e : Arrival) : Prop := BridgesDirect s e ∧ SparesSender s e

/-- The ACI of an incoming group envelope is none to bridge: it is absent, the group's id itself, or bridged to
the group before. -/
def BridgeSpared (e : Arrival) : Prop :=
  ∀ group title aci, e.2.conversationOf = some (.group, group, title) → e.2.direction = some .incoming →
    e.2.sourceUuid = some aci → aci ≠ group → ∀ accountId ∈ receivingId e.1 e.2 s.store,
      (⟨accountId, aci, group⟩ : PeerIdentityRow) ∈ s.store.peerIdentities.rows

/-! ### What an ingest writes to the bridge -/

section Bridge

variable {env : IngestEnv} {r : NormalizedReceive} {landed : Landed}

/-- The landed row reveals the ACI. -/
def Reveals (r : NormalizedReceive) (landed : Landed) (aci : String) : Prop :=
  r.sourceUuid = some aci ∧ landed.message.direction = .incoming ∧ aci ≠ landed.peerKey

/-- The rows of the bridge are those of `s` but for the one of a revealed ACI. -/
structure BridgedFrom (r : NormalizedReceive) (landed : Landed) (s t : Store) : Prop where
  old : ∀ row ∈ t.peerIdentities.rows, row ∈ s.peerIdentities.rows ∨
    ∃ aci, Reveals r landed aci ∧ row = ⟨landed.account.id, aci, landed.peerKey⟩
  kept : ∀ row ∈ s.peerIdentities.rows, (∀ aci, Reveals r landed aci → row.key = (landed.account.id, aci) →
    row.peerKey = landed.peerKey) → row ∈ t.peerIdentities.rows

theorem BridgedFrom.refl {s t : Store} (h : t.peerIdentities = s.peerIdentities) : BridgedFrom r landed s t :=
  ⟨fun _ hrow => .inl (h ▸ hrow), fun _ hrow _ => h ▸ hrow⟩

theorem BridgedFrom.congr {s t u : Store} (h : BridgedFrom r landed s t) (hu : u.peerIdentities = t.peerIdentities) :
    BridgedFrom r landed s u :=
  ⟨fun row hrow => h.old row (hu ▸ hrow), fun row hrow hother => hu ▸ h.kept row hrow hother⟩

theorem BridgedFrom.upsert {s t : Store} {aci : String} (h : BridgedFrom r landed s t) (haci : Reveals r landed aci) :
    BridgedFrom r landed s (t.upsertPeerIdentity landed.account.id aci landed.peerKey) := by
  refine ⟨fun row hrow => ?_, fun row hrow hother => mem_upsertPeerIdentity.mpr ?_⟩
  · rcases mem_upsertPeerIdentity.mp hrow with rfl | ⟨hrow, -⟩
    · exact .inr ⟨aci, haci, rfl⟩
    · exact h.old row hrow
  · by_cases hkey : row.key = (landed.account.id, aci)
    · obtain ⟨haccount, haci'⟩ := Prod.mk.inj hkey
      refine .inl ?_
      rw [← haccount, ← haci', ← hother aci haci hkey]
    · exact .inr ⟨h.kept row hrow hother, hkey⟩

theorem storePreserves_bridgedFrom (env : IngestEnv) (r : NormalizedReceive) (landed : Landed) (s : Store) :
    StorePreserves (BridgedFrom r landed s) (settle env r landed) := by
  refine storePreserves_settle (fun t u ht hkeeps => ht.congr hkeeps.identities) fun message => ?_
  unfold revealIdentity
  split
  · exact storePreserves_return _
  next aci haci =>
  split
  · next hreveals =>
    refine (storePreserves_storeWrite fun t ht => ht.upsert ⟨haci, hreveals⟩).bind fun _ =>
      (storePreserves_storeCall fun t _ u ht h => ht.congr (mergePeerIdentity_frame h).2).bind fun outcome => ?_
    split <;> exact storePreserves_return _
  · exact storePreserves_return _

theorem peerIdentities_land (env : IngestEnv) (r : NormalizedReceive) (s : Service) :
    ((land env r).run s).2.store.peerIdentities = s.store.peerIdentities := by
  refine Prog.Preserves.run (I := fun t : Service => t.store.peerIdentities = s.store.peerIdentities) ?_ rfl
  refine storePreserves_land (P := fun t => t.peerIdentities = s.store.peerIdentities)
    (fun t u ht _ hu => hu.trans ht) (fun t u _ _ _ _ _ _ ht h => ?_) fun t u _ _ _ _ ht h => ?_
  · rw [peerIdentities_insertMessage h, ht]
  · rw [upsertAccount_frame h]
    exact ht

/-- What a landed row takes from its envelope. -/
theorem landed_of_run {s t : Service} (h : (land env r).run s = (.ok (some landed), t)) :
    ∃ title, r.conversationOf = some (landed.kind, landed.peerKey, title) ∧
      r.direction = some landed.message.direction ∧ receivingId env r s.store = some landed.account.id := by
  obtain ⟨signalAccount, title, _, _, _, _, hsteps, -⟩ := exists_landSteps h
  refine ⟨title, hsteps.belongs, hsteps.direction, ?_⟩
  unfold receivingId receiveTarget
  rw [hsteps.direction, hsteps.sentAt, if_pos ⟨rfl, rfl⟩, hsteps.resolved, id_upsertAccount hsteps.upserted]
  rfl

theorem bridge_ingest (env : IngestEnv) (r : NormalizedReceive) (s : Service) :
    (receiveStep s (env, r)).store.peerIdentities = s.store.peerIdentities ∨
      ∃ landed title, r.conversationOf = some (landed.kind, landed.peerKey, title) ∧
        r.direction = some landed.message.direction ∧ receivingId env r s.store = some landed.account.id ∧
        BridgedFrom r landed s.store (receiveStep s (env, r)).store := by
  unfold receiveStep
  dsimp only
  have hland := peerIdentities_land env r s
  rw [run_ingestReceive]
  rcases hrun : (land env r).run s with ⟨e | _ | landed, t⟩
  · rw [hrun] at hland
    exact .inl hland
  · rw [hrun] at hland
    exact .inl hland
  · rw [hrun] at hland
    obtain ⟨title, hconversation, hdirection, hid⟩ := landed_of_run hrun
    refine .inr ⟨landed, title, hconversation, hdirection, hid, ?_⟩
    exact Prog.Preserves.run (storePreserves_bridgedFrom env r landed s.store) (.refl hland)

theorem mem_of_settle {aci : String} {events : List HostSideEvent} {s t : Service} (haci : Reveals r landed aci)
    (h : (settle env r landed).run s = (.ok events, t)) :
    (⟨landed.account.id, aci, landed.peerKey⟩ : PeerIdentityRow) ∈ t.store.peerIdentities.rows := by
  unfold settle at h
  obtain ⟨_, u, -, h⟩ := Prog.exists_of_run_bind h
  obtain ⟨_, u, -, h⟩ := Prog.exists_of_run_bind h
  obtain ⟨message, u, -, h⟩ := Prog.exists_of_run_bind h
  obtain ⟨revealed, v, hreveal, h⟩ := Prog.exists_of_run_bind h
  -- the reads after it leave the service as it is
  have htv : t = v := by
    cases h
    rfl
  subst htv
  unfold revealIdentity at hreveal
  simp only [haci.1] at hreveal
  rw [if_pos haci.2, run_storeWrite] at hreveal
  cases hmerge : Store.mergePeerIdentity env.sha256
      (u.store.upsertPeerIdentity landed.account.id aci landed.peerKey) landed.account.id aci landed.peerKey env.now with
  | error e =>
    rw [run_storeCall_of_error _ _ hmerge] at hreveal
    cases hreveal
  | ok answer =>
    obtain ⟨outcome, store⟩ := answer
    rw [run_storeCall_of_ok _ _ hmerge] at hreveal
    have hstore : t.store = store := by
      cases outcome <;> cases hreveal <;> rfl
    rw [hstore, (mergePeerIdentity_frame hmerge).2]
    exact mem_upsertPeerIdentity.mpr (.inl rfl)

end Bridge

/-! ### One envelope -/

section Step

variable {s : Service} {env : IngestEnv} {r : NormalizedReceive}

theorem bridgeKept_of_mem_iff
    (h : ∀ row, row ∈ (receiveStep s (env, r)).store.peerIdentities.rows ↔ row ∈ s.store.peerIdentities.rows) :
    BridgeKept s (env, r) := by
  have hset := peerIdentitySet_of_mem_iff h
  refine ⟨fun row hrow => .inl ((h row).mp hrow), fun _ _ _ _ _ accountId number _ => ⟨fun key _ => hset _ _, ?_⟩⟩
  intro c hc recipient _
  simp only [qualifies, hset, if_pos hc]

theorem bridgeKept_of_spared (hspared : BridgeSpared s (env, r)) : BridgeKept s (env, r) := by
  rcases bridge_ingest env r s with hsame | ⟨landed, title, hconversation, hdirection, hid, hbridged⟩
  · exact bridgeKept_of_mem_iff fun row => by rw [hsame]
  cases hkind : landed.kind with
  | direct =>
    rw [hkind] at hconversation
    refine ⟨fun row hrow => ?_, fun group title' aci hgroup => ?_⟩
    · rcases hbridged.old row hrow with hrow | ⟨aci, -, rfl⟩
      · exact .inl hrow
      · exact .inr ⟨_, _, hconversation, rfl⟩
    · cases hconversation.symm.trans hgroup
  | group =>
    rw [hkind] at hconversation
    -- what the row reveals was there
    have hthere : ∀ aci, Reveals r landed aci →
        (⟨landed.account.id, aci, landed.peerKey⟩ : PeerIdentityRow) ∈ s.store.peerIdentities.rows := by
      intro aci haci
      exact hspared _ _ aci hconversation (hdirection.trans (congrArg some haci.2.1)) haci.1 haci.2.2 _ hid
    refine bridgeKept_of_mem_iff fun row => ⟨fun hrow => ?_, fun hrow => ?_⟩
    · rcases hbridged.old row hrow with hrow | ⟨aci, haci, rfl⟩
      · exact hrow
      · exact hthere aci haci
    · refine hbridged.kept row hrow fun aci haci hkey => ?_
      rw [s.store.peerIdentities.row_unique hrow (hthere aci haci) hkey]

/-- A group envelope that lands has bridged the ACI it carries to the group. -/
theorem spared_of_bridgeKept (hlands : Lands env r s) (hkept : BridgeKept s (env, r)) : BridgeSpared s (env, r) := by
  intro group title aci hgroup hdirection haci hne accountId hid
  obtain ⟨⟨landed, hland⟩, events, hevents⟩ := hlands
  have hrun : (land env r).run s = (.ok (some landed), ((land env r).run s).2) := Prod.ext hland rfl
  obtain ⟨title', hconversation, hdirection', hid'⟩ := landed_of_run hrun
  obtain ⟨hkind, hrest⟩ := Prod.mk.inj (Option.some.inj (hgroup.symm.trans hconversation))
  obtain ⟨hpeer, -⟩ := Prod.mk.inj hrest
  obtain rfl : accountId = landed.account.id := Option.some.inj (hid.symm.trans hid')
  have hincoming : landed.message.direction = .incoming := Option.some.inj (hdirection'.symm.trans hdirection)
  have hsettle : (settle env r landed).run ((land env r).run s).2 = (.ok events, receiveStep s (env, r)) := by
    have hall : (ingestReceive env r).run s = (.ok events, receiveStep s (env, r)) := Prod.ext hevents rfl
    rw [run_ingestReceive, hrun] at hall
    exact hall
  have hrow := mem_of_settle ⟨haci, hincoming, hpeer ▸ hne⟩ hsettle
  rcases hkept.1 _ hrow with hold | ⟨_, _, hdirect, -⟩
  · rwa [hpeer]
  · cases hgroup.symm.trans hdirect

end Step

/-- **Group traffic keeps the bridge** in every run in which no group envelope carries an ACI to be bridged; and
where all land, in no other. -/
theorem group_traffic_keeps_bridge (arrivals : List Arrival) :
    (Along receiveStep BridgeSpared s arrivals → Along receiveStep BridgeKept s arrivals) ∧
      (Along receiveStep (fun s e => Lands e.1 e.2 s) s arrivals →
        (Along receiveStep BridgeKept s arrivals ↔ Along receiveStep BridgeSpared s arrivals)) := by
  have hkept : Along receiveStep BridgeSpared s arrivals → Along receiveStep BridgeKept s arrivals :=
    Along.mono (fun _ _ => bridgeKept_of_spared) arrivals s
  refine ⟨hkept, fun hlands => ⟨fun h => ?_, hkept⟩⟩
  exact Along.mono (fun s e he => spared_of_bridgeKept he.1 he.2) arrivals s (Along.and arrivals s hlands h)

def boAci : String := "b0b0b0b0-0000-4000-8000-000000000001"

/-- A text to the number, from a sender whose ACI comes with it. -/
def directArrival : Arrival := (plainEnv, { helloReceive with sourceUuid := some boAci })

def groupArrival : Arrival :=
  (plainEnv, { helloReceive with timestamp := some 600, groupId := some "group-1", sourceUuid := some boAci })

def boConversation : ConversationRow := .ofPeer "conversation" "account" .direct "+2" "Bo"

/-- The message to the group replaces the number, and the direct conversation no longer takes the receipts the
sender's ACI signs. -/
theorem group_message_unbridges_sender :
    (receiveStep freshService directArrival).store.peerIdentities.rows = [⟨"account", boAci, "+2"⟩] ∧
    (receiveStep (receiveStep freshService directArrival) groupArrival).store.peerIdentities.rows =
      [⟨"account", boAci, "group-1"⟩] ∧
    (receiveStep freshService directArrival).store.qualifies "account" boAci boConversation = true ∧
    (receiveStep (receiveStep freshService directArrival) groupArrival).store.qualifies "account" boAci
      boConversation = false ∧ ¬ Along receiveStep BridgeKept freshService [directArrival, groupArrival] := by
  refine ⟨by decide +kernel, by decide +kernel, by decide +kernel, by decide +kernel, fun h => ?_⟩
  have hrow : (⟨"account", boAci, "group-1"⟩ : PeerIdentityRow) ∈
      (receiveStep (receiveStep freshService directArrival) groupArrival).store.peerIdentities.rows := by
    decide +kernel
  rcases h.2.1.1 _ hrow with hold | ⟨_, _, hdirect, -⟩
  · exact absurd hold (by decide +kernel)
  · cases hdirect

end Ingest

end SignalConnector
