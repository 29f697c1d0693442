/-
# The per-recipient ledger

Receipts and a send's own seeds fill the ledger of a message in whatever order
they come. Each tier of a recipient keeps its first stamp, so the tiers that are
stamped do not depend on the order (`tierOf_run`). The test that makes a receipt
a no-op looks at the receipt's own tier alone: one of an earlier tier that comes
after a later tier is stamped unless its own tier is.
-/
import SignalConnector.Lib.Run
import SignalConnector.Store.Receipts

namespace SignalConnector

open List Store Table

/-- What comes in for the ledger of a message: one receipt, or the seeds of its settled send. -/
inductive LedgerOp
  | receipt (recipient : String) (kind : ReceiptKind) (when : ℕ)
  | seed (seeds : List SendReceiptSeed) (when : ℕ)
  deriving DecidableEq

namespace LedgerOp

def recipients : LedgerOp → List String
  | receipt recipient _ when => if when < 2 ^ 63 then [recipient] else []
  | seed seeds _ => ((seeds.take 256).map SendReceiptSeed.recipient).filter (· ≠ "")

/-- The stamp it offers to this tier of the recipient. -/
def offers (recipient : String) (kind : ReceiptKind) : LedgerOp → Option ℤ
  | receipt recipient' kind' when =>
    if recipient' = recipient ∧ kind' = kind ∧ when < 2 ^ 63 then some when else none
  | seed _ _ => none

end LedgerOp

namespace ReceiptKind

/-- Delivered, read, viewed. -/
def order : ReceiptKind → ℕ
  | delivered => 0
  | read => 1
  | viewed => 2

end ReceiptKind

namespace MessageReceiptRow

variable (row : MessageReceiptRow) (kind kind' : ReceiptKind) (succeeded : Bool) (when : ℤ)

theorem key_stamp (stamped updatedAt : ℤ) (row : MessageReceiptRow) :
    (row.stamp kind stamped updatedAt).key = row.key := rfl

theorem key_seed (row : MessageReceiptRow) : (row.seed succeeded when).key = row.key := rfl

theorem tier_stamp (stamped updatedAt : ℤ) :
    (row.stamp kind' stamped updatedAt).tier kind = (row.tier kind).or (if kind' = kind then some stamped else none) := by
  cases kind <;> cases kind' <;> simp [stamp, tier]

theorem tier_seed : (row.seed succeeded when).tier kind = row.tier kind := by
  cases kind <;> rfl

theorem tier_fresh (messageId recipient : String) (updatedAt : ℤ) (kind : ReceiptKind) :
    (fresh messageId recipient updatedAt).tier kind = none := by
  cases kind <;> rfl

end MessageReceiptRow

namespace Store

variable {s : Store} {messageId : String}

/-- One receipt or seed comes in; a receipt whose time the store refuses is rolled back. -/
def ledgerStep (messageId : String) (s : Store) : LedgerOp → Store
  | .receipt recipient kind when =>
    match s.ledgerStampReceipt messageId recipient kind when with
    | .ok (_, s') => s'
    | .error _ => s
  | .seed seeds when => (s.seedSendReceipts messageId seeds when).2

/-- They come in one after the other. -/
def ledgerRun (messageId : String) (s : Store) (ops : List LedgerOp) : Store := ops.foldl (ledgerStep messageId) s

/-- The stamp of a recipient's tier. -/
def tierOf (s : Store) (messageId recipient : String) (kind : ReceiptKind) : Option ℤ :=
  (s.messageReceipts.find? (messageId, recipient)).bind fun row => row.tier kind

def roster (s : Store) (messageId : String) : List String :=
  (s.messageReceipts.rows.filter fun r => r.messageId = messageId).map MessageReceiptRow.recipient

/-! ### The roster -/

theorem ledgerCount_eq (s : Store) (messageId : String) : s.ledgerCount messageId = (s.roster messageId).length := by
  rw [ledgerCount, countP_eq_length_filter, roster, length_map]

theorem nodup_roster (s : Store) (messageId : String) : (s.roster messageId).Nodup := by
  refine (s.messageReceipts.nodup.of_map _).filter _ |>.map_on fun a ha b hb h => ?_
  obtain ⟨ha, hid⟩ := mem_filter.mp ha
  obtain ⟨hb, hid'⟩ := mem_filter.mp hb
  refine s.messageReceipts.row_unique ha hb ?_
  rw [MessageReceiptRow.key, MessageReceiptRow.key, of_decide_eq_true hid, of_decide_eq_true hid', h]

variable {op : LedgerOp} {recipient : String} {row : MessageReceiptRow} {all names : List String}

theorem find?_of_not_mem_roster (h : recipient ∉ s.roster messageId) :
    s.messageReceipts.find? (messageId, recipient) = none := by
  rw [Table.find?_eq_none]
  intro r hr hkey
  obtain ⟨hid, hrecipient⟩ := Prod.mk.inj hkey
  exact h (mem_map.mpr ⟨r, mem_filter.mpr ⟨hr, decide_eq_true hid⟩, hrecipient⟩)

theorem mem_roster : recipient ∈ s.roster messageId ↔ (s.messageReceipts.find? (messageId, recipient)).isSome := by
  rw [Option.isSome_iff_exists, roster, mem_map]
  constructor
  · rintro ⟨r, hr, rfl⟩
    obtain ⟨hr, hid⟩ := mem_filter.mp hr
    exact ⟨r, Table.find?_eq_some.mpr ⟨hr, Prod.ext (of_decide_eq_true hid) rfl⟩⟩
  · rintro ⟨r, hr⟩
    obtain ⟨hr, hkey⟩ := Table.find?_eq_some.mp hr
    obtain ⟨hid, hrecipient⟩ := Prod.mk.inj hkey
    exact ⟨r, mem_filter.mpr ⟨hr, decide_eq_true hid⟩, hrecipient⟩

/-- The ledger of the message, with a row written over. -/
def ledgerUpdate (s : Store) (key : String × String) (f : MessageReceiptRow → MessageReceiptRow)
    (hf : ∀ r, (f r).key = r.key) : Store :=
  { s with messageReceipts := s.messageReceipts.update (fun r => r.key = key) f hf }

theorem roster_ledgerUpdate (s : Store) (key : String × String) (f : MessageReceiptRow → MessageReceiptRow)
    (hf : ∀ r, (f r).key = r.key) : (s.ledgerUpdate key f hf).roster messageId = s.roster messageId := by
  have hsame : ∀ r : MessageReceiptRow, (if decide (r.key = key) then f r else r).key = r.key := fun r => by
    split
    · exact hf r
    · rfl
  unfold roster ledgerUpdate
  rw [rows_update]
  induction s.messageReceipts.rows with
  | nil => rfl
  | cons r =>
    obtain ⟨hid, hrecipient⟩ := Prod.mk.inj (hsame r)
    simp only [map_cons, filter_cons, hid]
    by_cases h : r.messageId = messageId <;> simp_all

theorem tierOf_ledgerUpdate (s : Store) (recipient' : String) (f : MessageReceiptRow → MessageReceiptRow)
    (hf : ∀ r, (f r).key = r.key) (recipient : String) (kind : ReceiptKind) :
    (s.ledgerUpdate (messageId, recipient') f hf).tierOf messageId recipient kind =
      (s.messageReceipts.find? (messageId, recipient)).bind fun row =>
        if recipient = recipient' then (f row).tier kind else row.tier kind := by
  unfold tierOf ledgerUpdate
  rw [find?_update]
  rcases hrow : s.messageReceipts.find? (messageId, recipient) with _ | row
  · rfl
  · have hkey : row.key = (messageId, recipient) := key_of_find? hrow
    rw [Option.map_some, Option.bind_some, Option.bind_some, hkey]
    by_cases h : recipient = recipient' <;> simp [h]

def ledgerInsert (s : Store) (row : MessageReceiptRow) : Store :=
  { s with messageReceipts := s.messageReceipts.insertOrIgnore row }

theorem roster_ledgerInsert (hid : row.messageId = messageId) (hfree : s.messageReceipts.find? row.key = none) :
    (s.ledgerInsert row).roster messageId = s.roster messageId ++ [row.recipient] := by
  unfold roster ledgerInsert
  rw [rows_insertOrIgnore_of_free hfree, filter_append, map_append]
  simp [hid]

theorem tierOf_ledgerInsert (hopen : ∀ kind, row.tier kind = none) (recipient : String)
    (kind : ReceiptKind) : (s.ledgerInsert row).tierOf messageId recipient kind = s.tierOf messageId recipient kind := by
  unfold tierOf ledgerInsert
  rw [find?_insertOrIgnore]
  rcases s.messageReceipts.find? (messageId, recipient) with _ | row'
  · by_cases h : row.key = (messageId, recipient) <;> simp [h, hopen]
  · simp

/-! ### One step -/

/-- The write of a receipt, on the row of its recipient. -/
def stampLedger (s : Store) (messageId recipient : String) (kind : ReceiptKind) (when : ℕ) : Store :=
  s.ledgerUpdate (messageId, recipient) (MessageReceiptRow.stamp kind when (asI64 when))
    (MessageReceiptRow.key_stamp kind when (asI64 when))

theorem tierOf_stampLedger {recipient' : String} {kind' : ReceiptKind} {when : ℕ} (hwhen : when < 2 ^ 63)
    (hthere : recipient' ∈ s.roster messageId) (recipient : String) (kind : ReceiptKind) :
    (s.stampLedger messageId recipient' kind' when).tierOf messageId recipient kind =
      (s.tierOf messageId recipient kind).or
        (if recipient' = recipient ∧ kind' = kind ∧ when < 2 ^ 63 then some (when : ℤ) else none) := by
  unfold stampLedger
  rw [tierOf_ledgerUpdate, tierOf]
  by_cases hname : recipient' = recipient
  · subst hname
    obtain ⟨row, hrow⟩ := Option.isSome_iff_exists.mp (mem_roster.mp hthere)
    rw [hrow, Option.bind_some, Option.bind_some, if_pos rfl, MessageReceiptRow.tier_stamp]
    simp only [true_and, hwhen, and_true]
  · have hother : recipient ≠ recipient' := fun h => hname h.symm
    simp only [hother, hname, if_false, false_and, Option.or_none]

/-- What a receipt does: nothing, or it stamps a row, of a recipient that is there or enters. -/
theorem ledgerStep_receipt_cases (s : Store) (messageId recipient : String) (kind : ReceiptKind) (when : ℕ) :
    (s.ledgerStep messageId (.receipt recipient kind when) = s ∧
        (2 ^ 63 ≤ when ∨ (s.tierOf messageId recipient kind).isSome ∨
          recipient ∉ s.roster messageId ∧ maxMessageReceiptRecipients ≤ s.ledgerCount messageId)) ∨
      (when < 2 ^ 63 ∧ s.tierOf messageId recipient kind = none ∧ recipient ∈ s.roster messageId ∧
        s.ledgerStep messageId (.receipt recipient kind when) = s.stampLedger messageId recipient kind when) ∨
      (when < 2 ^ 63 ∧ recipient ∉ s.roster messageId ∧ s.ledgerCount messageId < maxMessageReceiptRecipients ∧
        s.ledgerStep messageId (.receipt recipient kind when) =
          (s.ledgerInsert (.fresh messageId recipient (asI64 when))).stampLedger messageId recipient kind when) := by
  have hopen : ∀ (t : Store) (row : MessageReceiptRow), row.key = (messageId, recipient) → when < 2 ^ 63 →
      ∃ face, t.ledgerStampOpen row kind when = .ok (face, t.stampLedger messageId recipient kind when) := by
    intro t row hkey hwhen
    unfold ledgerStampOpen sqlU64
    rw [if_pos hwhen, hkey]
    exact ⟨_, rfl⟩
  have hrefused : ∀ (t : Store) (row : MessageReceiptRow), ¬when < 2 ^ 63 →
      t.ledgerStampOpen row kind when = .error .unavailable := by
    intro t row hwhen
    unfold ledgerStampOpen sqlU64
    rw [if_neg hwhen]
    rfl
  have hstep : ∀ {answer}, s.ledgerStampReceipt messageId recipient kind when = answer →
      s.ledgerStep messageId (.receipt recipient kind when) =
        match answer with
        | .ok (_, s') => s'
        | .error _ => s := by
    rintro _ rfl
    rfl
  unfold ledgerStampReceipt at hstep
  rw [mem_roster]
  unfold tierOf
  rcases hrow : s.messageReceipts.find? (messageId, recipient) with _ | row <;> rw [hrow] at hstep <;>
    dsimp only at hstep
  · by_cases hfull : maxMessageReceiptRecipients ≤ s.ledgerCount messageId
    · exact .inl ⟨hstep (if_pos hfull), .inr (.inr ⟨by simp, hfull⟩)⟩
    · rw [if_neg hfull] at hstep
      by_cases hwhen : when < 2 ^ 63
      · obtain ⟨face, hok⟩ := hopen (s.ledgerInsert (.fresh messageId recipient (asI64 when)))
          (.fresh messageId recipient (asI64 when)) rfl hwhen
        exact .inr (.inr ⟨hwhen, by simp, Nat.not_le.mp hfull, hstep hok⟩)
      · exact .inl ⟨hstep (hrefused _ _ hwhen), .inl (Nat.not_lt.mp hwhen)⟩
  · by_cases hstamped : (row.tier kind).isSome
    · exact .inl ⟨hstep (if_pos hstamped), .inr (.inl hstamped)⟩
    · rw [if_neg hstamped] at hstep
      by_cases hwhen : when < 2 ^ 63
      · obtain ⟨face, hok⟩ := hopen s row (key_of_find? hrow) hwhen
        exact .inr (.inl ⟨hwhen, by simpa using hstamped, rfl, hstep hok⟩)
      · exact .inl ⟨hstep (hrefused _ _ hwhen), .inl (Nat.not_lt.mp hwhen)⟩

/-- What one seed does: nothing, or it writes a row, of a recipient that is there or enters. -/
theorem seedRound_cases (s : Store) (messageId : String) (when : ℕ) (seed : SendReceiptSeed) :
    seedRound messageId when s seed = s ∨
      seedRound messageId when s seed = s.ledgerUpdate (messageId, seed.recipient)
        (MessageReceiptRow.seed seed.succeeded (asI64 when))
          (MessageReceiptRow.key_seed seed.succeeded (asI64 when)) ∨
      (seed.recipient ≠ "" ∧ seed.recipient ∉ s.roster messageId ∧
        s.ledgerCount messageId < maxMessageReceiptRecipients ∧ seedRound messageId when s seed =
          s.ledgerInsert ((MessageReceiptRow.fresh messageId seed.recipient (asI64 when)).seed seed.succeeded
            (asI64 when))) := by
  unfold seedRound
  rw [mem_roster]
  split
  · exact .inl rfl
  · next hname =>
    rcases hrow : s.messageReceipts.find? (messageId, seed.recipient) with _ | row
    · dsimp only
      split
      · exact .inl rfl
      · next hroom => exact .inr (.inr ⟨hname, by simp, Nat.not_le.mp hroom, rfl⟩)
    · dsimp only
      have hkey : row.key = (messageId, seed.recipient) := key_of_find? hrow
      rw [hkey]
      exact .inr (.inl rfl)

/-- The recipients of `s'` are those of `s` and these, and the ceiling holds. -/
structure RosterGrows (messageId : String) (names : List String) (s s' : Store) : Prop where
  old : ∀ recipient ∈ s'.roster messageId, recipient ∈ s.roster messageId ∨ recipient ∈ names
  bounded : s.ledgerCount messageId ≤ maxMessageReceiptRecipients →
    s'.ledgerCount messageId ≤ maxMessageReceiptRecipients

theorem RosterGrows.refl (messageId : String) (names : List String) (s : Store) : RosterGrows messageId names s s :=
  ⟨fun _ => .inl, id⟩

theorem RosterGrows.of_roster_eq {s s' : Store} (h : s'.roster messageId = s.roster messageId) :
    RosterGrows messageId names s s' := by
  refine ⟨fun _ hr => .inl (h ▸ hr), ?_⟩
  rw [ledgerCount_eq, ledgerCount_eq, h]
  exact id

theorem RosterGrows.of_roster_append {s s' : Store} {recipient : String}
    (h : s'.roster messageId = s.roster messageId ++ [recipient]) (hname : recipient ∈ names)
    (hroom : s.ledgerCount messageId < maxMessageReceiptRecipients) : RosterGrows messageId names s s' := by
  refine ⟨fun r hr => ?_, fun _ => ?_⟩
  · rw [h, mem_append, mem_singleton] at hr
    rcases hr with hr | rfl
    · exact .inl hr
    · exact .inr hname
  · rw [ledgerCount_eq] at hroom ⊢
    rw [h, length_append]
    exact hroom

theorem RosterGrows.trans {s s' s'' : Store} (h : RosterGrows messageId names s s')
    (h' : RosterGrows messageId names s' s'') : RosterGrows messageId names s s'' :=
  ⟨fun r hr => (h'.old r hr).elim (h.old r) .inr, h'.bounded ∘ h.bounded⟩

theorem rosterGrows_step (messageId : String) (s : Store) (op : LedgerOp) :
    RosterGrows messageId op.recipients s (s.ledgerStep messageId op) := by
  cases op with
  | receipt recipient kind when =>
    rcases ledgerStep_receipt_cases s messageId recipient kind when with
      ⟨hsame, -⟩ | ⟨-, -, -, hstamp⟩ | ⟨hwhen, hnew, hroom, henter⟩
    · rw [hsame]
      exact .refl _ _ _
    · rw [hstamp]
      exact .of_roster_eq (roster_ledgerUpdate _ _ _ _)
    · rw [henter]
      have hname : recipient ∈ (LedgerOp.receipt recipient kind when).recipients := by
        rw [LedgerOp.recipients, if_pos hwhen]
        exact mem_singleton_self _
      exact .of_roster_append ((roster_ledgerUpdate _ _ _ _).trans
        (roster_ledgerInsert rfl (find?_of_not_mem_roster hnew))) hname hroom
  | seed seeds when =>
    have hround : ∀ (s : Store) (seed : SendReceiptSeed), seed ∈ seeds.take 256 →
        RosterGrows messageId (LedgerOp.seed seeds when).recipients s (seedRound messageId when s seed) := by
      intro s seed hseed
      rcases seedRound_cases s messageId when seed with hsame | hwrite | ⟨hname, hnew, hroom, henter⟩
      · rw [hsame]
        exact .refl _ _ _
      · rw [hwrite]
        exact .of_roster_eq (roster_ledgerUpdate _ _ _ _)
      · rw [henter]
        exact .of_roster_append (roster_ledgerInsert rfl (find?_of_not_mem_roster hnew))
          (mem_filter.mpr ⟨mem_map_of_mem hseed, decide_eq_true hname⟩) hroom
    have hfold : ∀ (l : List SendReceiptSeed) (s : Store), (∀ seed ∈ l, seed ∈ seeds.take 256) →
        RosterGrows messageId (LedgerOp.seed seeds when).recipients s (l.foldl (seedRound messageId when) s) := by
      intro l
      induction l with
      | nil => exact fun s _ => .refl _ _ s
      | cons seed l ih =>
        exact fun s hl => (hround s seed (hl seed mem_cons_self)).trans
          (ih _ fun x hx => hl x (mem_cons_of_mem _ hx))
    change RosterGrows messageId _ s (s.seedSendReceipts messageId seeds when).2
    unfold seedSendReceipts
    split
    · exact .refl _ _ _
    · split
      · exact .refl _ _ _
      · exact hfold _ s fun _ h => h

theorem tierOf_seed (s : Store) (messageId : String) (seeds : List SendReceiptSeed) (when : ℕ) (recipient : String)
    (kind : ReceiptKind) : (s.ledgerStep messageId (.seed seeds when)).tierOf messageId recipient kind =
      s.tierOf messageId recipient kind := by
  have hround : ∀ (s : Store) (seed : SendReceiptSeed),
      (seedRound messageId when s seed).tierOf messageId recipient kind = s.tierOf messageId recipient kind := by
    intro s seed
    rcases seedRound_cases s messageId when seed with hsame | hwrite | ⟨-, -, -, henter⟩
    · rw [hsame]
    · rw [hwrite, tierOf_ledgerUpdate]
      refine congrArg _ (funext fun row => ?_)
      rw [MessageReceiptRow.tier_seed, ite_self]
    · rw [henter, tierOf_ledgerInsert fun kind => by
        rw [MessageReceiptRow.tier_seed, MessageReceiptRow.tier_fresh]]
  have hfold : ∀ l : List SendReceiptSeed, (l.foldl (seedRound messageId when) s).tierOf messageId recipient kind =
      s.tierOf messageId recipient kind := fun l =>
    foldl_invariant (fun t : Store => t.tierOf messageId recipient kind = s.tierOf messageId recipient kind)
      (fun t seed ht => (hround t seed).trans ht) l s rfl
  change (s.seedSendReceipts messageId seeds when).2.tierOf messageId recipient kind = _
  unfold seedSendReceipts
  split
  · rfl
  · split
    · rfl
    · exact hfold _

/-- **What one step does to a tier**: it takes the stamp it is offered if it has none. -/
theorem tierOf_step (s : Store) (messageId : String) (op : LedgerOp)
    (hroom : ∀ recipient ∈ op.recipients, recipient ∈ s.roster messageId ∨
      s.ledgerCount messageId < maxMessageReceiptRecipients) (recipient : String) (kind : ReceiptKind) :
    (s.ledgerStep messageId op).tierOf messageId recipient kind =
      (s.tierOf messageId recipient kind).or (op.offers recipient kind) := by
  cases op with
  | seed =>
    rw [tierOf_seed]
    exact Option.or_none.symm
  | receipt recipient' kind' when =>
    rw [LedgerOp.offers]
    rcases ledgerStep_receipt_cases s messageId recipient' kind' when with
      ⟨hsame, hwhy⟩ | ⟨hwhen, hopen, hthere, hstamp⟩ | ⟨hwhen, hnew, -, henter⟩
    · rw [hsame]
      by_cases hit : recipient' = recipient ∧ kind' = kind ∧ when < 2 ^ 63
      · rw [if_pos hit]
        obtain ⟨rfl, rfl, hwhen⟩ := hit
        rcases hwhy with hlate | hstamped | ⟨hnew, hfull⟩
        · omega
        · obtain ⟨stamp, hstamp⟩ := Option.isSome_iff_exists.mp hstamped
          rw [hstamp, Option.some_or]
        · have hname : recipient' ∈ (LedgerOp.receipt recipient' kind' when).recipients := by
            rw [LedgerOp.recipients, if_pos hwhen]
            exact mem_singleton_self _
          rcases hroom recipient' hname with hthere | hroom
          · exact absurd hthere hnew
          · omega
      · rw [if_neg hit, Option.or_none]
    · rw [hstamp]
      exact tierOf_stampLedger hwhen hthere recipient kind
    · rw [henter]
      refine (tierOf_stampLedger hwhen ?_ recipient kind).trans ?_
      · have hroster : (s.ledgerInsert (.fresh messageId recipient' (asI64 when))).roster messageId =
            s.roster messageId ++ [recipient'] := roster_ledgerInsert rfl (find?_of_not_mem_roster hnew)
        rw [hroster]
        exact mem_append_right _ (mem_singleton_self _)
      · rw [tierOf_ledgerInsert (MessageReceiptRow.tier_fresh _ _ _)]

/-! ### Runs -/

/-- Below the ceiling there is room for every recipient that may come. -/
theorem room_of_fits (hfits : all.dedup.length ≤ maxMessageReceiptRecipients)
    (hroster : ∀ recipient ∈ s.roster messageId, recipient ∈ all) {recipient : String} (hname : recipient ∈ all) :
    recipient ∈ s.roster messageId ∨ s.ledgerCount messageId < maxMessageReceiptRecipients := by
  by_cases hthere : recipient ∈ s.roster messageId
  · exact .inl hthere
  · refine .inr ?_
    have hnodup : (recipient :: s.roster messageId).Nodup := nodup_cons.mpr ⟨hthere, s.nodup_roster messageId⟩
    have hsub : recipient :: s.roster messageId ⊆ all.dedup := by
      intro x hx
      rcases mem_cons.mp hx with rfl | hx
      · exact mem_dedup.mpr hname
      · exact mem_dedup.mpr (hroster x hx)
    have hlength := (subperm_of_subset hnodup hsub).length_le
    rw [length_cons] at hlength
    rw [ledgerCount_eq]
    omega

/-- Only recipients that come enter. -/
theorem roster_run {all : List String} : ∀ (ops : List LedgerOp) (s : Store),
    (∀ recipient ∈ s.roster messageId, recipient ∈ all) → (∀ op ∈ ops, ∀ recipient ∈ op.recipients, recipient ∈ all) →
      ∀ recipient ∈ (s.ledgerRun messageId ops).roster messageId, recipient ∈ all
  | [], _, hroster, _ => hroster
  | op :: ops, s, hroster, hops => by
    have hnames := hops op mem_cons_self
    have hgrows := rosterGrows_step messageId s op
    exact roster_run ops (s.ledgerStep messageId op) (fun r hr => (hgrows.old r hr).elim (hroster r) (hnames r))
      fun op' hop' => hops op' (mem_cons_of_mem _ hop')

/-- **The stamp of a tier is the first one offered.** -/
theorem tierOf_run {all : List String} (hfits : all.dedup.length ≤ maxMessageReceiptRecipients) :
    ∀ (ops : List LedgerOp) (s : Store), (∀ recipient ∈ s.roster messageId, recipient ∈ all) →
      (∀ op ∈ ops, ∀ recipient ∈ op.recipients, recipient ∈ all) → ∀ recipient kind,
        (s.ledgerRun messageId ops).tierOf messageId recipient kind =
          (s.tierOf messageId recipient kind).or (ops.findSome? fun op => op.offers recipient kind)
  | [], s, _, _, recipient, kind => Option.or_none.symm
  | op :: ops, s, hroster, hops, recipient, kind => by
    have hnames := hops op mem_cons_self
    have hgrows := rosterGrows_step messageId s op
    have hstep := tierOf_step s messageId op (fun r hr => room_of_fits hfits hroster (hnames r hr)) recipient kind
    have hrest := tierOf_run hfits ops (s.ledgerStep messageId op)
      (fun r hr => (hgrows.old r hr).elim (hroster r) (hnames r)) (fun op' hop' => hops op' (mem_cons_of_mem _ hop'))
      recipient kind
    rw [hstep] at hrest
    refine hrest.trans ?_
    rw [findSome?_cons, Option.or_assoc]
    rcases op.offers recipient kind with _ | stamp <;> rfl

/-- The ceiling holds in every run. -/
theorem ledgerCount_run (s : Store) (messageId : String) (ops : List LedgerOp)
    (h : s.ledgerCount messageId ≤ maxMessageReceiptRecipients) :
    (s.ledgerRun messageId ops).ledgerCount messageId ≤ maxMessageReceiptRecipients :=
  foldl_invariant (fun t : Store => t.ledgerCount messageId ≤ maxMessageReceiptRecipients)
    (fun t op => (rosterGrows_step messageId t op).bounded) ops s h

/-- The recipient ceiling is not reached: those in the ledger and those that may come fit. -/
def BelowCeiling (messageId : String) (s : Store) (ops : List LedgerOp) : Prop :=
  (s.roster messageId ++ ops.flatMap LedgerOp.recipients).dedup.length ≤ maxMessageReceiptRecipients

instance (messageId : String) (s : Store) (ops : List LedgerOp) : Decidable (BelowCeiling messageId s ops) :=
  inferInstanceAs (Decidable (_ ≤ _))

def Received (messageId : String) (s : Store) (ops : List LedgerOp) (recipient : String) (kind : ReceiptKind) : Prop :=
  (s.tierOf messageId recipient kind).isSome ∨ ∃ when, .receipt recipient kind when ∈ ops ∧ when < 2 ^ 63

theorem offers_eq_some {kind : ReceiptKind} {stamp : ℤ} : op.offers recipient kind = some stamp ↔
      ∃ when : ℕ, op = .receipt recipient kind when ∧ when < 2 ^ 63 ∧ stamp = when := by
  cases op with
  | seed => simp [LedgerOp.offers]
  | receipt recipient' kind' when =>
    rw [LedgerOp.offers]
    constructor
    · intro h
      by_cases hit : recipient' = recipient ∧ kind' = kind ∧ when < 2 ^ 63
      · rw [if_pos hit] at h
        obtain ⟨rfl, rfl, hwhen⟩ := hit
        exact ⟨when, rfl, hwhen, (Option.some.inj h).symm⟩
      · rw [if_neg hit] at h
        cases h
    · rintro ⟨when, hop, hwhen, rfl⟩
      cases hop
      exact if_pos ⟨rfl, rfl, hwhen⟩

/-- **The tiers that are stamped are those received**, in whatever order. -/
theorem isSome_tierOf_run (hfits : all.dedup.length ≤ maxMessageReceiptRecipients)
    {ops : List LedgerOp} (hroster : ∀ recipient ∈ s.roster messageId, recipient ∈ all)
    (hops : ∀ op ∈ ops, ∀ recipient ∈ op.recipients, recipient ∈ all) (recipient : String) (kind : ReceiptKind) :
    ((s.ledgerRun messageId ops).tierOf messageId recipient kind).isSome ↔ Received messageId s ops recipient kind := by
  rw [tierOf_run hfits ops s hroster hops, Option.isSome_or, Bool.or_eq_true, findSome?_isSome_iff]
  refine or_congr_right ⟨?_, ?_⟩
  · rintro ⟨op, hop, hoffers⟩
    obtain ⟨stamp, hstamp⟩ := Option.isSome_iff_exists.mp hoffers
    obtain ⟨when, rfl, hwhen, -⟩ := offers_eq_some.mp hstamp
    exact ⟨when, hop, hwhen⟩
  · rintro ⟨when, hop, hwhen⟩
    exact ⟨_, hop, Option.isSome_iff_exists.mpr ⟨when, offers_eq_some.mpr ⟨when, rfl, hwhen, rfl⟩⟩⟩

end Store

/-! ### The law of the ledger -/

/-- The tiers stamped do not depend on the order; a stamp is a time received for its tier; an earlier tier than one
stamped changes nothing; no stamp goes or is written over; and the ceiling holds. -/
structure LedgerLaw (messageId : String) (s : Store) (ops : List LedgerOp) : Prop where
  unordered : ∀ ops' : List LedgerOp, ops'.Perm ops → ∀ recipient kind,
    ((s.ledgerRun messageId ops').tierOf messageId recipient kind).isSome =
      ((s.ledgerRun messageId ops).tierOf messageId recipient kind).isSome
  received : ∀ recipient kind stamp, (s.ledgerRun messageId ops).tierOf messageId recipient kind = some stamp →
    s.tierOf messageId recipient kind = some stamp ∨
      ∃ when : ℕ, .receipt recipient kind when ∈ ops ∧ stamp = when
  noop : ∀ before recipient kind when after, ops = before ++ .receipt recipient kind when :: after →
    (∃ later, kind.order < later.order ∧ ((s.ledgerRun messageId before).tierOf messageId recipient later).isSome) →
      (s.ledgerRun messageId before).ledgerStep messageId (.receipt recipient kind when) =
        s.ledgerRun messageId before
  kept : ∀ before op after, ops = before ++ op :: after → ∀ recipient kind stamp,
    (s.ledgerRun messageId before).tierOf messageId recipient kind = some stamp →
      ((s.ledgerRun messageId before).ledgerStep messageId op).tierOf messageId recipient kind = some stamp
  bounded : ∀ ops' : List LedgerOp, s.ledgerCount messageId ≤ maxMessageReceiptRecipients →
    (s.ledgerRun messageId ops').ledgerCount messageId ≤ maxMessageReceiptRecipients

/-- A receipt that comes after one of a later tier comes after one of its own. -/
def ClimbsInOrder (messageId : String) (s : Store) (ops : List LedgerOp) : Prop :=
  ∀ before recipient kind when after, ops = before ++ .receipt recipient kind when :: after → when < 2 ^ 63 →
    (∃ later, kind.order < later.order ∧ Store.Received messageId s before recipient later) →
      Store.Received messageId s before recipient kind

/-- **The ledger obeys its law iff the receipts climb in order.** -/
theorem ledger_law_iff (messageId : String) (s : Store) (ops : List LedgerOp)
    (hfits : Store.BelowCeiling messageId s ops) : LedgerLaw messageId s ops ↔ ClimbsInOrder messageId s ops := by
  set all := s.roster messageId ++ ops.flatMap LedgerOp.recipients
  have hroster : ∀ recipient ∈ s.roster messageId, recipient ∈ all := fun _ h => mem_append_left _ h
  have hnames : ∀ op ∈ ops, ∀ recipient ∈ op.recipients, recipient ∈ all := fun op hop _ h =>
    mem_append_right _ (mem_flatMap.mpr ⟨op, hop, h⟩)
  have hsub : ∀ {before op after}, ops = before ++ op :: after → ∀ op' ∈ before, op' ∈ ops := by
    rintro before op after rfl op' hop'
    exact mem_append_left _ hop'
  have hstamped : ∀ {before op after}, ops = before ++ op :: after → ∀ recipient kind,
      ((s.ledgerRun messageId before).tierOf messageId recipient kind).isSome ↔
        Store.Received messageId s before recipient kind := fun hsplit recipient kind =>
    isSome_tierOf_run hfits hroster (fun op' hop' => hnames op' (hsub hsplit op' hop')) recipient kind
  have hstep : ∀ {before op after}, ops = before ++ op :: after → ∀ recipient kind,
      ((s.ledgerRun messageId before).ledgerStep messageId op).tierOf messageId recipient kind =
        ((s.ledgerRun messageId before).tierOf messageId recipient kind).or (op.offers recipient kind) := by
    intro before op after hsplit recipient kind
    have hhere := Store.roster_run before s hroster fun op' hop' => hnames op' (hsub hsplit op' hop')
    refine Store.tierOf_step _ messageId op (fun r hr => Store.room_of_fits hfits hhere (hnames op ?_ r hr)) recipient kind
    rw [hsplit]
    exact mem_append_right _ mem_cons_self
  constructor
  · intro hlaw before recipient kind when after hsplit hwhen hlater
    obtain ⟨later, horder, hreceived⟩ := hlater
    have hsame := hlaw.noop before recipient kind when after hsplit
      ⟨later, horder, (hstamped hsplit recipient later).mpr hreceived⟩
    have hstamp := hstep hsplit recipient kind
    rw [hsame, offers_eq_some.mpr ⟨when, rfl, hwhen, rfl⟩] at hstamp
    refine (hstamped hsplit recipient kind).mp ?_
    rw [hstamp, Option.isSome_or, Option.isSome_some, Bool.or_true]
  · intro hclimbs
    refine ⟨fun ops' hperm recipient kind => ?_, fun recipient kind stamp hstamp => ?_,
      fun before recipient kind when after hsplit hlater => ?_, fun before op after hsplit recipient kind stamp h => ?_,
      s.ledgerCount_run messageId⟩
    · rw [Bool.eq_iff_iff, isSome_tierOf_run hfits hroster hnames,
        isSome_tierOf_run hfits hroster fun op hop => hnames op (hperm.mem_iff.mp hop)]
      unfold Store.Received
      simp only [hperm.mem_iff]
    · rw [Store.tierOf_run hfits ops s hroster hnames, Option.or_eq_some_iff] at hstamp
      refine hstamp.imp id fun hfound => ?_
      obtain ⟨op, hop, hoffers⟩ := exists_of_findSome?_eq_some hfound.2
      obtain ⟨when, rfl, -, rfl⟩ := offers_eq_some.mp hoffers
      exact ⟨when, hop, rfl⟩
    · obtain ⟨later, horder, hlater⟩ := hlater
      rcases ledgerStep_receipt_cases (s.ledgerRun messageId before) messageId recipient kind when with
        ⟨hsame, -⟩ | ⟨hwhen, hopen, -⟩ | ⟨-, hnew, -⟩
      · exact hsame
      · have hown := hclimbs before recipient kind when after hsplit hwhen
          ⟨later, horder, (hstamped hsplit recipient later).mp hlater⟩
        have hown := (hstamped hsplit recipient kind).mpr hown
        rw [hopen] at hown
        cases hown
      · rw [tierOf, Store.find?_of_not_mem_roster hnew] at hlater
        cases hlater
    · rw [hstep hsplit, h, Option.some_or]

def sentStore : Store :=
  { Store.empty with
    messages := .single (.ofText "m" "account" "conversation" .outgoing "account" 1000 "hi" .sent) }

/-- A delivery, a read and the send's own seed. -/
theorem ledger_law_in_order :
    LedgerLaw "m" sentStore [.receipt "bo" .delivered 10, .seed [⟨"bo", true⟩] 20, .receipt "bo" .read 30] := by
  refine (ledger_law_iff "m" sentStore _ (by decide)).mpr fun before recipient kind when after hsplit _ hlater => ?_
  obtain ⟨later, horder, hthere | ⟨stamp, hthere, -⟩⟩ := hlater
  · cases hthere
  · rcases before with _ | ⟨_, _ | ⟨_, _ | ⟨_, before⟩⟩⟩ <;> simp_all
    -- before the read receipt there is the delivery only
    obtain ⟨rfl, rfl, ⟨rfl, rfl, rfl⟩, rfl⟩ := hsplit
    rcases hthere with h | h <;> cases h
    exact absurd horder (by decide)

/-- A delivery receipt that comes after the read receipt of its recipient is stamped. -/
theorem delivery_after_read_stamped :
    (sentStore.ledgerRun "m" [.receipt "bo" .read 30]).tierOf "m" "bo" .read = some 30 ∧
      (sentStore.ledgerRun "m" [.receipt "bo" .read 30]).tierOf "m" "bo" .delivered = none ∧
      ((sentStore.ledgerRun "m" [.receipt "bo" .read 30]).ledgerStep "m" (.receipt "bo" .delivered 40)).tierOf
        "m" "bo" .delivered = some 40 ∧
      ¬LedgerLaw "m" sentStore [.receipt "bo" .read 30, .receipt "bo" .delivered 40] := by
  have hstamped : ((sentStore.ledgerRun "m" [.receipt "bo" .read 30]).ledgerStep "m"
      (.receipt "bo" .delivered 40)).tierOf "m" "bo" .delivered = some 40 := by decide
  have hopen : (sentStore.ledgerRun "m" [.receipt "bo" .read 30]).tierOf "m" "bo" .delivered = none := by decide
  refine ⟨by decide, hopen, hstamped, fun hlaw => ?_⟩
  have hsame := hlaw.noop [.receipt "bo" .read 30] "bo" .delivered 40 [] rfl ⟨.read, by decide, by decide⟩
  rw [hsame, hopen] at hstamped
  cases hstamped

end SignalConnector
