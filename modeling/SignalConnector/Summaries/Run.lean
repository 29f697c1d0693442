/-
# The summaries along a run

Every writer of rows keeps the summaries above the rows but one: the merge of
two conversations of a peer leaves a notice at the time of the merge and tells
neither the conversation nor the account. So the summaries cover the rows along
a run exactly when every notice is older than what it joins. That the list of
conversations follows the rows needs more, that an ending is reached by a row:
a send whose completion moves the newest row of its conversation back leaves
the ending where it was.
-/
import SignalConnector.Lib.Run
import SignalConnector.Summaries.Deletes
import SignalConnector.Summaries.Merge

namespace SignalConnector

/-- The writers of rows, and what makes accounts and conversations for them. -/
inductive SummaryOp
  | linkAccount (signalAccount : String) (linkedAt : Option ℕ) (proxyGroup id : String)
  | ensureConversation (accountId : String) (kind : ConversationKind) (peerKey title : String)
  | insertMessage (message : MessageRecord) (clientRequestId preview : Option String) (incrementUnread : Bool)
      (storedAt : ℕ)
  | insertHistoryBatch (rows : List HistoryImportInsert) (storedAt : ℕ)
  | completeOutgoingSend (messageId accountId conversationId : String) (sentAt : ℕ)
      (outcomes : Option MessageSendOutcomes)
  | settleUnknownSend (messageId : String) (dispatched : Bool)
  | mergePeerIdentity (accountId aci numberPeerKey : String) (now : ℕ)
  | normalizeMemoIdentity (accountId : String)
  | pruneHistory (nowMs maxMessages : ℕ)
  | sweepExpiredMessages (nowMs cap : ℕ)
  | deleteMessagesBySentAt (accountId conversationId : String) (sentAt : List ℕ)
  | deleteConversation (accountId conversationId : String) (boundAt : Option ℕ) (dropRow : Bool)

namespace Store

variable (sha256 : String → String)

def summaryStep (s : Store) : SummaryOp → Store
  | .linkAccount signalAccount linkedAt proxyGroup id =>
    s.after (s.upsertAccountFromSignalWithId signalAccount linkedAt proxyGroup id)
  | .ensureConversation accountId kind peerKey title =>
    s.after (s.ensureConversation sha256 accountId kind peerKey title)
  | .insertMessage message clientRequestId preview incrementUnread storedAt =>
    s.after (s.insertMessage message clientRequestId preview incrementUnread storedAt)
  | .insertHistoryBatch rows storedAt => s.after (s.insertHistoryBatch rows storedAt)
  | .completeOutgoingSend messageId accountId conversationId sentAt outcomes =>
    (s.completeOutgoingSend messageId accountId conversationId sentAt outcomes).2
  | .settleUnknownSend messageId dispatched => (s.settleUnknownSend messageId dispatched).2
  | .mergePeerIdentity accountId aci numberPeerKey now =>
    s.after (s.mergePeerIdentity sha256 accountId aci numberPeerKey now)
  | .normalizeMemoIdentity accountId => s.after (s.normalizeMemoIdentity sha256 accountId)
  | .pruneHistory nowMs maxMessages => (s.pruneHistory nowMs maxMessages).2
  | .sweepExpiredMessages nowMs cap => (s.sweepExpiredMessages nowMs cap).2
  | .deleteMessagesBySentAt accountId conversationId sentAt =>
    s.after (s.deleteMessagesBySentAt accountId conversationId sentAt)
  | .deleteConversation accountId conversationId boundAt dropRow =>
    s.after (s.deleteConversation accountId conversationId boundAt dropRow)

end Store

namespace SummaryOp

/-- The rows are handed in with conversations of their own account, those of a batch for one account. -/
def Addressed (s : Store) : SummaryOp → Prop
  | insertMessage message _ _ _ _ => s.OwnConversation message.accountId message.conversationId
  | insertHistoryBatch rows _ => ∀ first ∈ rows.head?, s.OneAccount rows first.record.accountId
  | _ => True

/-- A merge leaves no notice that is newer than both conversations. -/
def NoticeKept (sha256 : String → String) (s : Store) : SummaryOp → Prop
  | mergePeerIdentity accountId aci numberPeerKey now => s.MergeCovered sha256 accountId aci numberPeerKey now
  | _ => True

/-- A completion does not take the newest stamp of its conversation away. -/
def NewestKept (s : Store) : SummaryOp → Prop
  | completeOutgoingSend messageId accountId conversationId sentAt _ =>
    s.StampKept messageId accountId conversationId sentAt
  | _ => True

end SummaryOp

namespace Store

variable {sha256 : String → String} {s t : Store}

theorem keeps_linkAccount {signalAccount proxyGroup id : String} {linkedAt : Option ℕ} {a : AccountRow}
    (h : s.upsertAccountFromSignalWithId signalAccount linkedAt proxyGroup id = .ok (a, t)) : s.KeepsSums t := by
  unfold upsertAccountFromSignalWithId at h
  dsimp only at h
  split at h
  · cases h
    refine ⟨fun _ hs => ⟨hs.rows, CoveredBy.tops_mono hs.endings fun b hb => ?_⟩, fun _ _ h => h⟩
    refine ⟨_, List.mem_map_of_mem hb, ?_⟩
    split <;> exact ⟨rfl, le_rfl⟩
  · split at h
    · cases h
    · cases h
      refine ⟨fun _ hs => ⟨hs.rows, CoveredBy.tops_mono hs.endings fun b hb => ?_⟩, fun _ _ h => h⟩
      exact ⟨b, Table.mem_insertOrIgnore_of_mem hb, rfl, le_rfl⟩

/-- **One step.** Every writer of addressed rows keeps the summaries, the merge if its notice is covered, and the
endings, a completion if it keeps the newest stamp. -/
theorem keeps_step {op : SummaryOp} (haddressed : op.Addressed s) :
    KeepsSumsIf (op.NoticeKept sha256 s) (op.NewestKept s) s (s.summaryStep sha256 op) := by
  match op with
  | .linkAccount .. => exact after_of_ok (.refl s) fun _ _ h => keeps_linkAccount h
  | .ensureConversation .. => exact after_of_ok (.refl s) fun _ _ h => keeps_ensureConversation h
  | .insertMessage .. => exact after_of_ok (.refl s) fun _ _ h => keepsSums_insertMessage haddressed h
  | .insertHistoryBatch .. => exact after_of_ok (.refl s) fun _ _ h => keeps_insertHistoryBatch haddressed h
  | .completeOutgoingSend .. => exact keeps_completeOutgoingSend
  | .settleUnknownSend _ dispatched => exact keeps_settleUnknownSend dispatched
  | .mergePeerIdentity accountId aci numberPeerKey now =>
    refine after_of_ok (.refl s) fun o t h => ?_
    rcases s.mergePeerIdentity_cases sha256 accountId aci numberPeerKey now with
      ⟨hsame, -⟩ | ⟨shell, canonical, o', hpair, haccount, hmerge, hiff⟩
    · rw [hsame o t h]
      exact .refl s
    · rw [hmerge] at h
      obtain ⟨-, rfl⟩ := Prod.mk.inj (Except.ok.inj h)
      refine ⟨fun hnotice hs => summed_foldPeer hs hpair haccount (hiff.mp hnotice), fun _ _ hattained => ?_⟩
      have hfold := (foldsInto_foldPeer s hpair.apart).endingsAttained hpair hattained
      rcases s.noticeOf sha256 accountId shell canonical now with _ | notice
      · exact hfold
      · exact hfold.insertOrIgnore notice
  | .normalizeMemoIdentity _ => exact after_of_ok (.refl s) fun _ _ h => keeps_normalizeMemoIdentity h
  | .pruneHistory nowMs maxMessages => exact s.keeps_pruneHistory nowMs maxMessages
  | .sweepExpiredMessages nowMs cap => exact s.keeps_sweepExpiredMessages nowMs cap
  | .deleteMessagesBySentAt .. =>
    refine after_of_ok (.refl s) fun _ _ h => ?_
    unfold deleteMessagesBySentAt at h
    split at h <;> cases h
    exact .refl s
  | .deleteConversation .. => exact after_of_ok (.refl s) fun _ _ h => keeps_deleteConversation h

/-- A merge whose notice is newer than what it joins leaves the notice uncovered. -/
theorem not_summariesCover_step {op : SummaryOp} (hnotice : ¬op.NoticeKept sha256 s) :
    ¬(s.summaryStep sha256 op).SummariesCover := by
  match op with
  | .mergePeerIdentity accountId aci numberPeerKey now =>
    rcases s.mergePeerIdentity_cases sha256 accountId aci numberPeerKey now with
      ⟨-, hcovered⟩ | ⟨shell, canonical, o, hpair, -, hmerge, hiff⟩
    · exact absurd hcovered hnotice
    · unfold summaryStep
      dsimp only
      rw [hmerge]
      exact not_summariesCover_foldPeer hpair fun h => hnotice (hiff.mpr h)
  | .linkAccount .. | .ensureConversation .. | .insertMessage .. | .insertHistoryBatch ..
  | .completeOutgoingSend .. | .settleUnknownSend .. | .normalizeMemoIdentity .. | .pruneHistory ..
  | .sweepExpiredMessages .. | .deleteMessagesBySentAt .. | .deleteConversation .. => exact absurd trivial hnotice

end Store

/-- **Summaries cover their rows** iff no merge leaves a notice newer than what it joins; and if no
completion takes a newest stamp away, conversations sort by their rows. -/
theorem summaries_cover_iff (sha256 : String → String) (s : Store) (ops : List SummaryOp) (hs : s.Summed)
    (hops : Along (Store.summaryStep sha256) (fun s op => op.Addressed s) s ops) :
    (Along (Store.summaryStep sha256) (fun s op => (s.summaryStep sha256 op).SummariesCover) s ops ↔
        Along (Store.summaryStep sha256) (fun s op => op.NoticeKept sha256 s) s ops) ∧ (s.EndingsAttained →
        Along (Store.summaryStep sha256) (fun s op => op.NoticeKept sha256 s ∧ op.NewestKept s) s ops →
          Along (Store.summaryStep sha256) (fun s op => (s.summaryStep sha256 op).SortedByRows) s ops) := by
  constructor
  · refine Along.iff_of_invariant Store.Summed (fun s op hs haddressed hnotice => ?_)
      (fun s op _ hnotice => Store.not_summariesCover_step hnotice) ops s hs hops
    have hstep := (Store.keeps_step haddressed).summed hnotice hs
    exact ⟨hstep, Store.summariesCover hstep.rows hstep.endings⟩
  · intro hattained hkept
    have hboth := Along.and ops s hops hkept
    refine Along.imp (fun s => s.Summed ∧ s.EndingsAttained) (fun s op hop hs => ?_) (fun s op hop hs => ?_) ops s hboth
      ⟨hs, hattained⟩ <;> obtain ⟨hsummed, hendings⟩ := @Store.keeps_step sha256 s op hop.1
    · exact ⟨hsummed hop.2.1 hs.1, hendings hop.2.2 hs.1 hs.2⟩
    · exact Store.sortedByRows (hsummed hop.2.1 hs.1).rows (hendings hop.2.2 hs.1 hs.2)

/-! ### A notice, and a send that completes late -/

/-- A direct conversation of the account that ends at this stamp. -/
def chatAt (id peerKey title : String) (stamp : ℤ) : ConversationRow :=
  { ConversationRow.ofPeer id "account" .direct peerKey title with lastMessageAt := some stamp }

def twiceBo : Store :=
  { Store.empty with
    accounts := .single { AccountRow.ofAddress "account" "+1" "+1" "group" with lastMessageAt := some 300 }
    conversations := ⟨[chatAt "shell" "+2" "Bo" 100, chatAt "canonical" "aci" "Bo" 200, chatAt "cy" "+3" "Cy" 300],
      by decide⟩
    messages := ⟨[.ofText "m1" "account" "shell" .incoming "bo" 100 "hi" .delivered,
      .ofText "m2" "account" "canonical" .incoming "bo" 200 "hello" .delivered,
      .ofText "m3" "account" "cy" .outgoing "account" 300 "well" .pending], by decide⟩ }

theorem twiceBo_summed : twiceBo.Summed :=
  ⟨by unfold Store.RowsCovered CoveredBy; decide, by unfold Store.EndingsCovered CoveredBy; decide⟩

/-- A send that completes later than it was written, a merge in time and a retention pass. -/
def quietRun : List SummaryOp :=
  [.completeOutgoingSend "m3" "account" "cy" 310 none, .mergePeerIdentity "account" "aci" "+2" 150, .pruneHistory 400 10]

/-- A quiet run keeps the summaries above the rows and the conversations in the order of their rows. -/
theorem quietRun_covered :
    Along (Store.summaryStep id) (fun s op => (s.summaryStep id op).SummariesCover) twiceBo quietRun ∧
      Along (Store.summaryStep id) (fun s op => (s.summaryStep id op).SortedByRows) twiceBo quietRun := by
  have hmerge : SummaryOp.NoticeKept id (twiceBo.summaryStep id (.completeOutgoingSend "m3" "account" "cy" 310 none))
      (.mergePeerIdentity "account" "aci" "+2" 150) := by
    change Store.MergeCovered _ _ _ _ _ _
    unfold Store.MergeCovered Store.NoticeCovered
    decide
  have hsend : SummaryOp.NewestKept twiceBo (.completeOutgoingSend "m3" "account" "cy" 310 none) := by
    change Store.StampKept _ _ _ _ _
    unfold Store.StampKept
    decide
  obtain ⟨hcover, hsorted⟩ :=
    summaries_cover_iff id twiceBo quietRun twiceBo_summed ⟨trivial, trivial, trivial, trivial⟩
  refine ⟨hcover.mpr ⟨trivial, hmerge, trivial, trivial⟩, hsorted ?_
    ⟨⟨trivial, hsend⟩, ⟨hmerge, trivial⟩, ⟨trivial, trivial⟩, trivial⟩⟩
  unfold Store.EndingsAttained AttainedBy
  decide

/-- A merge at 5000 leaves its notice above the ending 200. A send written at 300 that completes at 150 leaves Cy's
conversation above Bo's row at 200. -/
theorem merge_notice_uncovered :
    (twiceBo.summaryStep id (.mergePeerIdentity "account" "aci" "+2" 5000)).conversations.rows.map
        (fun c => (c.id, c.lastMessageAt)) = [("canonical", some 200), ("cy", some 300)] ∧
      (twiceBo.summaryStep id (.mergePeerIdentity "account" "aci" "+2" 5000)).messages.rows.map
        (fun m => (m.conversationId, m.sentAt)) =
          [("canonical", 100), ("canonical", 200), ("cy", 300), ("canonical", 5000)] ∧
      ¬(twiceBo.summaryStep id (.mergePeerIdentity "account" "aci" "+2" 5000)).SummariesCover ∧
      ¬(twiceBo.summaryStep id (.mergePeerIdentity "account" "aci" "+2" 5000)).SortedByRows ∧
      ¬(twiceBo.summaryStep id (.completeOutgoingSend "m3" "account" "cy" 150 none)).SortedByRows := by
  refine ⟨by decide +kernel, by decide +kernel, ?_, ?_, ?_⟩
  · unfold Store.SummariesCover
    decide +kernel
  · unfold Store.SortedByRows
    decide +kernel
  · unfold Store.SortedByRows
    decide +kernel

end SignalConnector
