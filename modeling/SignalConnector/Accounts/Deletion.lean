/-
# Is an account deletion complete and isolated?

After a deletion nothing of the account may be left but its entries in the two
ledgers of deletions, nothing of another account may be touched, and the
receipt has to count what went. Three lists in the source have to agree with
the schema for that: the tables that are counted, the tables that are deleted
from by hand or by a cascade, and the `meta` keys.

They agree on the tables, but for the cached avatars, which are deleted and not
counted. Of the two `meta` keys only one is deleted. The cascades take rows
other accounts filed under the account's; and the ledgers are cut whoever's
entries go.
-/
import SignalConnector.Lib.Fold
import SignalConnector.Store.AccountDelete

namespace SignalConnector

open List Table

/-- An entry of one of the ledgers of deletions. -/
def DbRow.isLedger : DbRow → Bool
  | .deleteOperation _ | .deleteReceipt _ => true
  | _ => false

namespace Database

/-- The row refers to the account: by its column, through its message, or by the name of its key. -/
def Refers (db : Database) (accountId : String) : DbRow → Prop
  | .account r => r.id = accountId
  | .conversation r => r.accountId = accountId
  | .message r => r.accountId = accountId
  | .messageReceipt r => db.ownsMessage accountId r.messageId = true
  | .messageEdit r => r.accountId = accountId
  | .messageEvent r => r.accountId = accountId
  | .contact r => r.accountId = accountId
  | .peerIdentity r => r.accountId = accountId
  | .conversationPin r => r.accountId = accountId
  | .conversationDraft r => r.accountId = accountId
  | .memoMigration r => r.accountId = accountId
  | .identityMerge r => r.accountId = accountId
  | .historyImport r => r.accountId = accountId
  | .stageRecipient r => r.accountId = accountId
  | .stageChat r => r.accountId = accountId
  | .avatar r => r.accountId = accountId
  | .metaKey r => r.key = contactsSyncedAtKey accountId ∨ r.key = storiesDisabledKey accountId
  | .deleteOperation r => r.accountId = accountId
  | .deleteReceipt r => r.accountId = accountId

/-- The foreign keys of the schema onto `accounts` hold. -/
def ForeignKeys (db : Database) : Prop :=
  ∀ accountId, (∀ a ∈ db.store.accounts.rows, a.id ≠ accountId) → ∀ row, row.isLedger = false →
    (∀ r, row ≠ .metaKey r) → db.Has row → ¬db.Refers accountId row

end Database

/-! ### The property -/

/-- What is to hold between the databases before and after a deletion, and the receipt it filed. -/
structure DeletedCleanly (accountId : String) (db db' : Database) (receipt : Option DeleteReceiptRow) :
    Prop where
  gone : ∀ row, row.isLedger = false → db.Refers accountId row → ¬db'.Has row
  isolated : ∀ row, ¬db.Refers accountId row → (db'.Has row ↔ db.Has row)
  counted : ∀ r ∈ receipt, ∀ table : AccountTable,
    (∀ n, (table.asStr, n) ∈ r.tableCounts → db'.count table + n = db.count table) ∧
      ((∀ n, (table.asStr, n) ∉ r.tableCounts) → db'.count table = db.count table)

/-! ### Its condition -/

namespace Database

variable (sha256 : String → String) (db : Database) (accountId operationId : String)

/-- The receipts as the deletion cuts them. -/
def receiptsFiled (nowMs : ℕ) : Table DeleteReceiptRow.accountId :=
  (db.fileReceipt (accountDeleteReceipt sha256 db accountId nowMs)).accountDeleteReceipts

/-- The operations as the deletion cuts them. -/
def operationsSettled (nowMs : ℕ) : Table DeleteOperationRow.operationId :=
  db.accountDeleteOperations.update (fun r => r.operationId = operationId ∧ r.accountId = accountId)
    (completedOperation nowMs) (operationId_completedOperation nowMs)

/-- No flag for stories, no avatar, no other account's rows under this one's, no bare sync marker, room in both
ledgers. -/
structure DeletesCleanly (sha256 : String → String) (db : Database) (accountId : String)
    (operationId : Option String) (nowMs : ℕ) : Prop where
  stories : ∀ r ∈ db.metaKeys.rows, r.key ≠ storiesDisabledKey accountId
  marker : (∀ a ∈ db.store.accounts.rows, a.id ≠ accountId) →
    ∀ r ∈ db.metaKeys.rows, r.key ≠ contactsSyncedAtKey accountId
  avatars : ∀ r ∈ db.conversationAvatars.rows, r.accountId ≠ accountId
  edits : ∀ r ∈ db.store.messageEdits.rows, db.ownsMessage accountId r.messageId → r.accountId = accountId
  pins : ∀ r ∈ db.conversationPins.rows, db.ownsConversation accountId r.conversationId → r.accountId = accountId
  drafts : ∀ r ∈ db.conversationDrafts.rows,
    db.ownsConversation accountId r.conversationId → r.accountId = accountId
  receipts : (∃ a ∈ db.store.accounts.rows, a.id = accountId) →
    ∀ r ∈ db.accountDeleteReceipts.rows, r.accountId ≠ accountId →
      r.accountId ∈ keptReceipts (db.receiptsFiled sha256 accountId nowMs)
  operations : ∀ o ∈ operationId, ∀ r ∈ db.accountDeleteOperations.rows, r.accountId ≠ accountId →
    r.state = .completed → r.operationId ∈ keptOperations (db.operationsSettled accountId o nowMs)

/-! ### What the deletes leave -/

/-- The row is left by the deletes. -/
def Spared (accountId : String) : DbRow → Prop
  | .messageEdit r => db.ownsMessage accountId r.messageId = false
  | .conversationPin r => r.accountId ≠ accountId ∧ db.ownsConversation accountId r.conversationId = false
  | .conversationDraft r => r.accountId ≠ accountId ∧ db.ownsConversation accountId r.conversationId = false
  | .metaKey r => r.key ≠ contactsSyncedAtKey accountId
  | .deleteOperation _ | .deleteReceipt _ => True
  | row => ¬db.Refers accountId row

variable {db db' : Database} {accountId : String}

theorem contains_gone (db : Database) (accountId messageId : String) :
    ((db.store.messages.rows.filter fun m => m.accountId = accountId).map MessageRow.id).contains messageId =
      db.ownsMessage accountId messageId := by
  rw [Bool.eq_iff_iff]
  simp only [contains_iff_mem, mem_map, mem_filter, decide_eq_true_eq, ownsMessage,
    any_eq_true]
  constructor
  · rintro ⟨m, ⟨hm, hown⟩, hid⟩
    exact ⟨m, hm, hid, hown⟩
  · rintro ⟨m, hm, hid, hown⟩
    exact ⟨m, ⟨hm, hown⟩, hid⟩

/-- `DELETE … WHERE account_id=?1`. -/
theorem mem_delete_owned {R K : Type} {key : R → K} {t : Table key} {owner : R → String} {r : R} :
    r ∈ (t.delete fun r => owner r = accountId).rows ↔ r ∈ t.rows ∧ ¬owner r = accountId :=
  mem_delete.trans (and_congr_right fun _ => decide_eq_false_iff_not)

/-- A cascade along conversations, then one along accounts. -/
theorem mem_delete_twice {R K : Type} {key : R → K} {t : Table key} {owner home : R → String} {r : R} :
    r ∈ ((t.delete fun r => db.ownsConversation accountId (home r)).delete fun r => owner r = accountId).rows ↔
      r ∈ t.rows ∧ owner r ≠ accountId ∧ db.ownsConversation accountId (home r) = false := by
  rw [mem_delete_owned, mem_delete]
  tauto

/-- **What the deletes leave.** The rows spared, those only, and the ledger of operations; the account's prior bodies
were of its own messages. -/
theorem has_deleteAccountRows (h : db.deleteAccountRows accountId = .ok db') :
    (∀ row, db'.Has row ↔ db.Has row ∧ db.Spared accountId row) ∧
      db'.accountDeleteOperations = db.accountDeleteOperations ∧
      ∀ r ∈ db.store.messageEdits.rows, r.accountId = accountId → db.ownsMessage accountId r.messageId = true := by
  obtain ⟨db₁, h₁, h₂⟩ := exists_of_bind_ok h
  unfold deleteAccountConversations at h₁
  split at h₁
  · cases h₁
  cases h₁
  unfold deleteAccountRow at h₂
  split at h₂
  · cases h₂
  next hleft =>
  cases h₂
  have hmessage : ∀ {R K : Type} {key : R → K} {t : Table key} {home : R → String} {r : R},
      r ∈ (t.delete fun r => ((db.store.messages.rows.filter fun m => m.accountId = accountId).map
        MessageRow.id).contains (home r)).rows ↔ r ∈ t.rows ∧ db.ownsMessage accountId (home r) = false := by
    intro R K key t home r
    rw [mem_delete, contains_gone]
  refine ⟨fun row => ?_, rfl, fun r hr hown => ?_⟩
  · cases row with
    | messageReceipt => exact hmessage.trans (and_congr_right fun _ => Bool.not_eq_true _ ▸ Iff.rfl)
    | messageEdit => exact hmessage
    | conversationPin | conversationDraft => exact mem_delete_twice
    | metaKey => exact mem_delete.trans (and_congr_right fun _ => decide_eq_false_iff_not)
    | deleteOperation | deleteReceipt => exact (and_iff_left trivial).symm
    | _ => exact mem_delete_owned
  · by_contra hnot
    refine hleft ?_
    have hkept := hmessage.mpr ⟨hr, Bool.eq_false_iff.mpr hnot⟩
    have hany := (any_eq_true (p := fun r => decide (r.accountId = accountId))).mpr
      ⟨r, hkept, decide_eq_true hown⟩
    simp only [Bool.or_eq_true]
    exact .inl (.inl (.inl (.inr hany)))

/-! ### The ledgers -/

theorem has_receipt_of_other (receipt : DeleteReceiptRow) {r : DeleteReceiptRow}
    (hr : r.accountId ≠ receipt.accountId) :
    r ∈ (db.fileReceipt receipt).pruneAccountDeleteReceipts.accountDeleteReceipts.rows ↔
      r ∈ db.accountDeleteReceipts.rows ∧
        r.accountId ∈ keptReceipts (db.fileReceipt receipt).accountDeleteReceipts := by
  have hfiled : r ∈ (db.fileReceipt receipt).accountDeleteReceipts.rows ↔ r ∈ db.accountDeleteReceipts.rows := by
    constructor
    · intro h
      rcases mem_of_mem_insertOrIgnore h with h | rfl
      · exact (mem_delete.mp h).1
      · exact absurd rfl hr
    · exact fun h => mem_insertOrIgnore_of_mem (mem_delete.mpr ⟨h, decide_eq_false hr⟩)
  refine mem_delete.trans (and_congr hfiled ?_)
  rw [decide_eq_false_iff_not, not_not]

/-- Settling the operation writes its ledger only, and of other accounts' entries keeps the newest. -/
theorem has_settleOperation {operationId : Option String} {nowMs : ℕ}
    (h : db.settleOperation accountId operationId nowMs = .ok db') :
    (∀ row, (∀ r, row ≠ .deleteOperation r) → (db'.Has row ↔ db.Has row)) ∧
      (∀ table, db'.count table = db.count table) ∧ db'.accountDeleteReceipts = db.accountDeleteReceipts ∧
      ∀ r, r.accountId ≠ accountId → (r ∈ db'.accountDeleteOperations.rows ↔
        r ∈ db.accountDeleteOperations.rows ∧ ∀ o ∈ operationId, r.state = .completed →
          r.operationId ∈ keptOperations (db.operationsSettled accountId o nowMs)) := by
  unfold settleOperation at h
  cases operationId with
  | none =>
    cases h
    exact ⟨fun _ _ => Iff.rfl, fun _ => rfl, rfl, fun r _ => by simp⟩
  | some o =>
    dsimp only at h
    split at h
    swap
    · cases h
    cases h
    refine ⟨fun row hrow => ?_, fun table => by cases table <;> rfl, rfl, fun r hr => ?_⟩
    · cases row with
      | deleteOperation r => exact absurd rfl (hrow r)
      | _ => exact Iff.rfl
    · have hother : r ∈ (db.operationsSettled accountId o nowMs).rows ↔ r ∈ db.accountDeleteOperations.rows := by
        unfold operationsSettled
        refine mem_update_of_owner_ne (f := completedOperation nowMs) DeleteOperationRow.accountId (fun x hx => ?_)
          (fun _ => rfl) hr
        exact (of_decide_eq_true hx).2
      simp only [Option.mem_some_iff, forall_eq']
      refine mem_delete.trans (and_congr hother ?_)
      rw [decide_eq_false_iff_not, not_and, not_not]
      exact Iff.rfl

/-! ### The counts -/

def taken (db : Database) (accountId : String) : AccountTable → ℕ
  | .messageEdits => db.store.messageEdits.rows.countP fun r => db.ownsMessage accountId r.messageId
  | .conversationPins => db.conversationPins.rows.countP fun r =>
      r.accountId = accountId || db.ownsConversation accountId r.conversationId
  | .conversationDrafts => db.conversationDrafts.rows.countP fun r =>
      r.accountId = accountId || db.ownsConversation accountId r.conversationId
  | table => db.countOf accountId table

theorem length_delete_add {R K : Type} {key : R → K} (t : Table key) (p : R → Bool) :
    (t.delete p).rows.length + t.rows.countP p = t.rows.length := by
  rw [rows_delete, ← countP_eq_length_filter, Nat.add_comm, length_eq_countP_add_countP p]
  simp

theorem length_delete_twice {R K : Type} {key : R → K} (t : Table key) (p q : R → Bool) :
    ((t.delete q).delete p).rows.length + t.rows.countP (fun r => p r || q r) = t.rows.length := by
  have hboth : ((t.delete q).delete p).rows = (t.delete fun r => p r || q r).rows := by
    simp only [rows_delete, filter_filter, Bool.not_or]
  rw [hboth, length_delete_add]

theorem count_deleteAccountRows (h : db.deleteAccountRows accountId = .ok db') (table : AccountTable) :
    db'.count table + db.taken accountId table = db.count table := by
  obtain ⟨db₁, h₁, h₂⟩ := exists_of_bind_ok h
  unfold deleteAccountConversations at h₁
  split at h₁
  · cases h₁
  cases h₁
  unfold deleteAccountRow at h₂
  split at h₂
  · cases h₂
  cases h₂
  have hcascade : ∀ {R K : Type} {key : R → K} (t : Table key) (home : R → String),
      (t.delete fun r => ((db.store.messages.rows.filter fun m => m.accountId = accountId).map
        MessageRow.id).contains (home r)).rows.length +
          t.rows.countP (fun r => db.ownsMessage accountId (home r)) = t.rows.length := by
    intro R K key t home
    simp only [contains_gone]
    exact length_delete_add _ _
  cases table with
  | messageReceipts | messageEdits => exact hcascade _ _
  | conversationPins | conversationDrafts => exact length_delete_twice _ _ _
  | _ => exact length_delete_add _ _

/-- The tables whose rows are counted are the ones listed, the receipts of messages, and the account's own. -/
theorem mem_tableCounts (db : Database) (accountId : String) (table : AccountTable) (n : ℕ) :
    (table.asStr, n) ∈ db.tableCounts accountId ↔
      (table ≠ .conversationAvatars ∧ table ≠ .accounts ∧ 0 < db.countOf accountId table ∧
        n = db.countOf accountId table) ∨ (table = .accounts ∧ n = 1) := by
  unfold tableCounts
  rw [(perm_insertionSort _ _).mem_iff, mem_append, mem_singleton, mem_filterMap]
  have hlisted : table ∈ accountDeleteTables ++ [AccountTable.messageReceipts] ↔
      table ≠ .conversationAvatars ∧ table ≠ .accounts := by
    cases table <;> decide
  constructor
  · rintro (⟨listed, hmem, hentry⟩ | hentry)
    · split at hentry
      · next hpos =>
        obtain ⟨hname, rfl⟩ := Prod.mk.inj (Option.some.inj hentry)
        cases AccountTable.asStr_injective hname
        exact .inl ⟨(hlisted.mp hmem).1, (hlisted.mp hmem).2, hpos, rfl⟩
      · cases hentry
    · obtain ⟨hname, rfl⟩ := Prod.mk.inj hentry
      exact .inr ⟨AccountTable.asStr_injective hname, rfl⟩
  · rintro (⟨havatars, haccounts, hpos, rfl⟩ | ⟨rfl, rfl⟩)
    · exact .inl ⟨table, hlisted.mpr ⟨havatars, haccounts⟩, if_pos hpos⟩
    · exact .inr rfl

/-! ### The whole call -/

section Call

variable {sha256 : String → String} {operationId : Option String} {nowMs : ℕ} {truncated : Bool}
  {receipt : Option DeleteReceiptRow}

theorem exists_account_iff (db : Database) (accountId : String) :
    (db.store.accounts.rows.any fun r => r.id = accountId) = true ↔ ∃ a ∈ db.store.accounts.rows, a.id = accountId := by
  simp

/-- What a successful call leaves of an account that is there. -/
theorem has_complete (hthere : ∃ a ∈ db.store.accounts.rows, a.id = accountId)
    (h : db.completeAccountDeleteRecorded sha256 accountId operationId nowMs truncated = .ok (receipt, db')) :
    (∀ row, row.isLedger = false → (db'.Has row ↔ db.Has row ∧ db.Spared accountId row)) ∧
      (∀ r : DeleteReceiptRow, r.accountId ≠ accountId → (db'.Has (.deleteReceipt r) ↔
        db.Has (.deleteReceipt r) ∧ r.accountId ∈ keptReceipts (db.receiptsFiled sha256 accountId nowMs))) ∧
      (∀ r : DeleteOperationRow, r.accountId ≠ accountId → (db'.Has (.deleteOperation r) ↔
        db.Has (.deleteOperation r) ∧ ∀ o ∈ operationId, r.state = .completed →
          r.operationId ∈ keptOperations (db.operationsSettled accountId o nowMs))) ∧
      (∀ table, db'.count table + db.taken accountId table = db.count table) ∧
      (∀ r ∈ db.store.messageEdits.rows, r.accountId = accountId → db.ownsMessage accountId r.messageId = true) ∧
      ∃ r, receipt = some r ∧ r.tableCounts = db.tableCounts accountId := by
  unfold completeAccountDeleteRecorded at h
  rw [if_pos ((exists_account_iff db accountId).mpr hthere)] at h
  obtain ⟨deleted, hdeleted, h⟩ := exists_of_bind_ok h
  obtain ⟨settled, hsettled, h⟩ := exists_of_bind_ok h
  cases h
  obtain ⟨hrows, hledger, hedits⟩ := has_deleteAccountRows hdeleted
  obtain ⟨hsame, hcount, hreceipts, hoperations⟩ := has_settleOperation hsettled
  refine ⟨fun row hrow => ?_, fun r hr => ?_, fun r hr => ?_, fun table => ?_, hedits, _, rfl, rfl⟩
  · have hleft := (hsame row (by rintro r rfl; cases hrow)).trans (hrows row)
    cases row with
    | deleteReceipt => cases hrow
    | _ => exact hleft
  · have hother := (hrows (.deleteReceipt r)).trans ((and_iff_left trivial).trans (has_receipt_of_other _ hr))
    change r ∈ deleted.accountDeleteReceipts.rows ↔ _ at hother
    rw [← hreceipts] at hother
    have hcheckpoint : ∀ w, r ∈ (settled.accountDeleteReceipts.update (fun r => r.accountId = accountId)
        (checkpointedReceipt w) (accountId_checkpointedReceipt w)).rows ↔
          r ∈ settled.accountDeleteReceipts.rows := fun w =>
      mem_update_of_owner_ne DeleteReceiptRow.accountId (fun x hx => of_decide_eq_true hx)
        (accountId_checkpointedReceipt w) hr
    exact (hcheckpoint _).trans hother
  · refine (hoperations r hr).trans ?_
    unfold operationsSettled
    rw [hledger]
    exact Iff.rfl
  · have hleft := count_deleteAccountRows hdeleted table
    rw [← hcount] at hleft
    cases table <;> exact hleft

/-- What a successful call leaves of an account that is not there: only its operation is settled. -/
theorem settle_of_absent (habsent : ∀ a ∈ db.store.accounts.rows, a.id ≠ accountId)
    (h : db.completeAccountDeleteRecorded sha256 accountId operationId nowMs truncated = .ok (receipt, db')) :
    receipt = none ∧ db.settleOperation accountId operationId nowMs = .ok db' := by
  have hnone : ¬(db.store.accounts.rows.any fun r => r.id = accountId) = true := fun hany =>
    let ⟨a, ha, hid⟩ := (exists_account_iff db accountId).mp hany
    habsent a ha hid
  unfold completeAccountDeleteRecorded at h
  rw [if_neg hnone] at h
  obtain ⟨settled, hsettled, h⟩ := exists_of_bind_ok h
  cases h
  exact ⟨rfl, hsettled⟩

/-! ### Both directions, for an account that is there -/

theorem storiesDisabledKey_ne_contactsSyncedAtKey (accountId : String) :
    storiesDisabledKey accountId ≠ contactsSyncedAtKey accountId := by
  intro h
  have hlength := congrArg String.length h
  unfold storiesDisabledKey contactsSyncedAtKey at hlength
  rw [String.length_append, String.length_append] at hlength
  have hne : "stories_disabled:".length ≠ "contacts_synced_at:".length := by decide +kernel
  exact hne (Nat.add_right_cancel hlength)

theorem taken_eq_countOf (hclean : db.DeletesCleanly sha256 accountId operationId nowMs)
    (hedits : ∀ r ∈ db.store.messageEdits.rows, r.accountId = accountId →
      db.ownsMessage accountId r.messageId = true) (table : AccountTable) :
    db.taken accountId table = db.countOf accountId table := by
  cases table with
  | messageEdits =>
    refine countP_congr fun r hr => ?_
    rw [decide_eq_true_eq]
    exact ⟨hclean.edits r hr, hedits r hr⟩
  | conversationPins =>
    refine countP_congr fun r hr => ?_
    rw [Bool.or_eq_true, decide_eq_true_eq]
    exact ⟨fun h => h.elim id (hclean.pins r hr), .inl⟩
  | conversationDrafts =>
    refine countP_congr fun r hr => ?_
    rw [Bool.or_eq_true, decide_eq_true_eq]
    exact ⟨fun h => h.elim id (hclean.drafts r hr), .inl⟩
  | _ => rfl

/-- The receipt's counts are the rows that went. -/
theorem counted_of_clean (hthere : ∃ a ∈ db.store.accounts.rows, a.id = accountId)
    (hclean : db.DeletesCleanly sha256 accountId operationId nowMs) {table : AccountTable}
    (hcount : db'.count table + db.countOf accountId table = db.count table) :
    (∀ n, (table.asStr, n) ∈ db.tableCounts accountId → db'.count table + n = db.count table) ∧
      ((∀ n, (table.asStr, n) ∉ db.tableCounts accountId) → db'.count table = db.count table) := by
  obtain ⟨account, haccount, hid⟩ := hthere
  have hone : db.countOf accountId .accounts = 1 := countP_key haccount hid
  simp only [mem_tableCounts]
  refine ⟨fun n hn => ?_, fun hnone => ?_⟩
  · rcases hn with ⟨-, -, -, rfl⟩ | ⟨rfl, rfl⟩
    · exact hcount
    · rw [← hone]
      exact hcount
  · have hzero : db.countOf accountId table = 0 := by
      by_contra hpos
      by_cases havatars : table = .conversationAvatars
      · subst havatars
        obtain ⟨r, hr, hown⟩ := countP_pos_iff.mp (Nat.pos_of_ne_zero hpos)
        exact hclean.avatars r hr (of_decide_eq_true hown)
      by_cases haccounts : table = .accounts
      · exact hnone 1 (.inr ⟨haccounts, rfl⟩)
      · exact hnone _ (.inl ⟨havatars, haccounts, Nat.pos_of_ne_zero hpos, rfl⟩)
    omega

theorem clean_iff_of_account (hthere : ∃ a ∈ db.store.accounts.rows, a.id = accountId)
    (h : db.completeAccountDeleteRecorded sha256 accountId operationId nowMs truncated = .ok (receipt, db')) :
    DeletedCleanly accountId db db' receipt ↔ db.DeletesCleanly sha256 accountId operationId nowMs := by
  obtain ⟨hrows, hreceipts, hoperations, hcount, hedits, r₀, rfl, hr₀⟩ := has_complete hthere h
  constructor
  · rintro ⟨hgone, hisolated, hcounted⟩
    -- a row of another account that is there has to be spared
    have hspared : ∀ row, row.isLedger = false → ¬db.Refers accountId row → db.Has row →
        db.Spared accountId row := fun row hledger hother hrow =>
      ((hrows row hledger).mp ((hisolated row hother).mpr hrow)).2
    refine ⟨fun r hr hkey => ?_, fun habsent => ?_, fun r hr hown => ?_, fun r hr hown => ?_,
      fun r hr hown => ?_, fun r hr hown => ?_, fun _ r hr hother => ?_, fun o ho r hr hother hdone => ?_⟩
    · refine hgone (.metaKey r) rfl (.inr hkey) ((hrows (.metaKey r) rfl).mpr ⟨hr, ?_⟩)
      exact fun hsynced => storiesDisabledKey_ne_contactsSyncedAtKey accountId (hkey.symm.trans hsynced)
    · obtain ⟨a, ha, hid⟩ := hthere
      exact absurd hid (habsent a ha)
    · have huncounted := (hcounted r₀ rfl .conversationAvatars).2 fun n hn => by
        rw [hr₀, mem_tableCounts] at hn
        simp at hn
      have hpos : 0 < db.taken accountId .conversationAvatars :=
        countP_pos_iff.mpr ⟨r, hr, decide_eq_true hown⟩
      have hleft := hcount .conversationAvatars
      omega
    · by_contra hother
      exact Bool.false_ne_true ((hspared (.messageEdit r) rfl hother hr).symm.trans hown)
    · by_contra hother
      exact Bool.false_ne_true ((hspared (.conversationPin r) rfl hother hr).2.symm.trans hown)
    · by_contra hother
      exact Bool.false_ne_true ((hspared (.conversationDraft r) rfl hother hr).2.symm.trans hown)
    · exact ((hreceipts r hother).mp ((hisolated (.deleteReceipt r) hother).mpr hr)).2
    · exact ((hoperations r hother).mp ((hisolated (.deleteOperation r) hother).mpr hr)).2 o ho hdone
  · intro hclean
    refine ⟨fun row hledger hrefers hrow => ?_, fun row hother => ?_, fun r hr table => ?_⟩
    · obtain ⟨hthere, hspared⟩ := (hrows row hledger).mp hrow
      cases row with
      | messageEdit r => exact Bool.false_ne_true (hspared.symm.trans (hedits r hthere hrefers))
      | conversationPin | conversationDraft => exact hspared.1 hrefers
      | metaKey r => exact hrefers.elim hspared (hclean.stories r hthere)
      | deleteOperation | deleteReceipt => cases hledger
      | _ => exact hspared hrefers
    · cases row with
      | messageEdit r =>
        refine (hrows (.messageEdit r) rfl).trans (and_iff_left_of_imp fun hr => Bool.eq_false_iff.mpr ?_)
        exact fun hown => hother (hclean.edits r hr hown)
      | conversationPin r =>
        refine (hrows (.conversationPin r) rfl).trans (and_iff_left_of_imp fun hr => ⟨hother, ?_⟩)
        exact Bool.eq_false_iff.mpr fun hown => hother (hclean.pins r hr hown)
      | conversationDraft r =>
        refine (hrows (.conversationDraft r) rfl).trans (and_iff_left_of_imp fun hr => ⟨hother, ?_⟩)
        exact Bool.eq_false_iff.mpr fun hown => hother (hclean.drafts r hr hown)
      | metaKey r =>
        exact (hrows (.metaKey r) rfl).trans (and_iff_left fun hkey => hother (.inl hkey))
      | deleteOperation r =>
        exact (hoperations r hother).trans (and_iff_left_of_imp fun hr o ho =>
          hclean.operations o ho r hr hother)
      | deleteReceipt r =>
        exact (hreceipts r hother).trans (and_iff_left_of_imp fun hr => hclean.receipts hthere r hr hother)
      | _ => exact (hrows _ rfl).trans (and_iff_left hother)
    · cases hr
      have hleft := hcount table
      rw [taken_eq_countOf hclean hedits] at hleft
      rw [hr₀]
      exact counted_of_clean hthere hclean hleft

/-! ### And for one that is not -/

theorem clean_iff_of_absent (hfk : db.ForeignKeys) (habsent : ∀ a ∈ db.store.accounts.rows, a.id ≠ accountId)
    (h : db.completeAccountDeleteRecorded sha256 accountId operationId nowMs truncated = .ok (receipt, db')) :
    DeletedCleanly accountId db db' receipt ↔ db.DeletesCleanly sha256 accountId operationId nowMs := by
  obtain ⟨rfl, hsettled⟩ := settle_of_absent habsent h
  obtain ⟨hsame, -, hreceipts, hoperations⟩ := has_settleOperation hsettled
  have hnothing := hfk accountId habsent
  have howns : ∀ messageId, ¬db.ownsMessage accountId messageId = true := by
    intro messageId hown
    obtain ⟨m, hm, hmatch⟩ := any_eq_true.mp hown
    exact hnothing (.message m) rfl (fun _ => nofun) hm (of_decide_eq_true hmatch).2
  have hhome : ∀ conversationId, ¬db.ownsConversation accountId conversationId = true := by
    intro conversationId hown
    obtain ⟨c, hc, hmatch⟩ := any_eq_true.mp hown
    exact hnothing (.conversation c) rfl (fun _ => nofun) hc (of_decide_eq_true hmatch).2
  constructor
  · rintro ⟨hgone, hisolated, -⟩
    have hkey : ∀ r ∈ db.metaKeys.rows, ¬db.Refers accountId (.metaKey r) := fun r hr hrefers =>
      hgone (.metaKey r) rfl hrefers ((hsame (.metaKey r) fun _ => nofun).mpr hr)
    refine ⟨fun r hr hstories => hkey r hr (.inr hstories), fun _ r hr hsynced => hkey r hr (.inl hsynced),
      fun r hr hown => hnothing (.avatar r) rfl (fun _ => nofun) hr hown,
      fun r _ hown => absurd hown (howns _), fun r _ hown => absurd hown (hhome _),
      fun r _ hown => absurd hown (hhome _), ?_, fun o ho r hr hother hdone => ?_⟩
    · rintro ⟨a, ha, hid⟩
      exact absurd hid (habsent a ha)
    · exact ((hoperations r hother).mp ((hisolated (.deleteOperation r) hother).mpr hr)).2 o ho hdone
  · intro hclean
    refine ⟨fun row hledger hrefers hrow => ?_, fun row hother => ?_, nofun⟩
    · have hrow := (hsame row (by rintro r rfl; cases hledger)).mp hrow
      by_cases hmeta : ∃ r, row = .metaKey r
      · obtain ⟨r, rfl⟩ := hmeta
        exact hrefers.elim (hclean.marker habsent r hrow) (hclean.stories r hrow)
      · exact hnothing row hledger (fun r hr => hmeta ⟨r, hr⟩) hrow hrefers
    · by_cases hentry : ∃ r, row = .deleteOperation r
      · obtain ⟨r, rfl⟩ := hentry
        exact (hoperations r hother).trans (and_iff_left_of_imp fun hr o ho =>
          hclean.operations o ho r hr hother)
      · exact hsame row fun r hr => hentry ⟨r, hr⟩

end Call

end Database

/-- **When an account deletion is complete and isolated**: it leaves no reference to the account but in the ledgers,
and touches no other's rows, iff nothing is in its way. -/
theorem account_deletion_clean_iff (sha256 : String → String) (db db' : Database) (hfk : db.ForeignKeys)
    (accountId : String) (operationId : Option String) (nowMs : ℕ) (truncated : Bool)
    (receipt : Option DeleteReceiptRow)
    (h : db.completeAccountDeleteRecorded sha256 accountId operationId nowMs truncated = .ok (receipt, db')) :
    DeletedCleanly accountId db db' receipt ↔ db.DeletesCleanly sha256 accountId operationId nowMs := by
  by_cases hthere : ∃ a ∈ db.store.accounts.rows, a.id = accountId
  · exact Database.clean_iff_of_account hthere h
  · exact Database.clean_iff_of_absent hfk (fun a ha hid => hthere ⟨a, ha, hid⟩) h

/-- Two accounts, each with a text in its one conversation, and the keys of `meta` and avatars given. -/
def twoAccounts (metaKeys : Table MetaRow.key) (conversationAvatars : Table AvatarRow.conversationId) : Database :=
  { Database.empty with
    store := { Store.empty with
      accounts := ⟨[.ofAddress "a" "+1" "+1" "default", .ofAddress "b" "+2" "+2" "default"], by decide⟩
      conversations := ⟨[.ofPeer "c" "a" .direct "+2" "peer", .ofPeer "d" "b" .direct "+1" "peer"], by decide⟩
      messages := ⟨[.ofText "m" "a" "c" .outgoing "a" 1000 "one" .sent,
        .ofText "n" "b" "d" .incoming "a" 1000 "one" .delivered], by decide⟩ }
    metaKeys
    conversationAvatars }

theorem twoAccounts_foreignKeys (metaKeys : Table MetaRow.key) : (twoAccounts metaKeys .empty).ForeignKeys := by
  intro accountId habsent row hledger hmeta hrow hrefers
  have ha : "a" ≠ accountId := habsent _ (mem_pair.mpr (.inl rfl))
  have hb : "b" ≠ accountId := habsent _ (mem_pair.mpr (.inr rfl))
  cases row with
  | account r => exact habsent r hrow hrefers
  | conversation | message =>
    rcases mem_pair.mp hrow with rfl | rfl
    · exact ha hrefers
    · exact hb hrefers
  | metaKey r => exact hmeta r rfl
  | deleteOperation | deleteReceipt => cases hledger
  | _ => exact absurd hrow not_mem_nil

theorem synced_account_deleted_cleanly :
    let db := twoAccounts ⟨[⟨contactsSyncedAtKey "a", "1000"⟩], by simp⟩ .empty
    ∃ receipt db', db.completeAccountDeleteRecorded id "a" none 2000 true = .ok (receipt, db') ∧
      DeletedCleanly "a" db db' receipt ∧ db'.store.messages.rows.map MessageRow.id = ["n"] := by
  refine ⟨_, _, rfl, (account_deletion_clean_iff id _ _ (twoAccounts_foreignKeys _) "a" none 2000 true _ rfl).mpr ?_,
    by decide⟩
  exact {
    stories := by decide +kernel
    marker := by decide +kernel
    avatars := by decide
    edits := by decide
    pins := by decide
    drafts := by decide
    receipts := by decide
    operations := by decide }

/-- The flag for stories outlives the account, and the avatar that goes is in no count. -/
theorem stories_flag_outlives_account :
    let flag : MetaRow := ⟨storiesDisabledKey "a", "1"⟩
    let db := twoAccounts ⟨[flag], by simp⟩ ⟨[⟨"c", "a", "data:image/png;base64,AA==", 1, 1000⟩], by simp⟩
    ∃ receipt db', db.completeAccountDeleteRecorded id "a" none 2000 true = .ok (some receipt, db') ∧
      db.Refers "a" (.metaKey flag) ∧ db'.Has (.metaKey flag) ∧
      receipt.tableCounts = [("accounts", 1), ("conversations", 1), ("messages", 1)] ∧
      db.count .conversationAvatars = 1 ∧ db'.count .conversationAvatars = 0 := by
  refine ⟨_, _, rfl, .inr rfl, ?_, ?_, ?_, ?_⟩
  · exact mem_singleton.mpr rfl
  · decide +kernel
  · decide
  · decide

end SignalConnector
