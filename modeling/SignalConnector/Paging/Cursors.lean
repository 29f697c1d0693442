/-
# Which cursors are accepted

Each cursor is the text of a sort key behind the ids it is bound to, separated
by colons. The decoder takes the text apart at the first colons and tests the
parts. What it accepts of what the encoder minted: the ids in front may not
contain a colon, a time has to fit into `i64` as it was printed, which a
negative one does not, and the id at the end has one to 128 bytes.
-/
import SignalConnector.Store.Lists

namespace SignalConnector

open List

/-! ### Splitting at colons -/

/-- The text has no colon. -/
def Unsplit (text : String) : Prop := ':' ∉ text.toList
  deriving Decidable

theorem splitn_cons {text : String} (h : Unsplit text) (n : ℕ) (rest : List Char) :
    splitn (n + 2) (text.toList ++ ':' :: rest) = text :: splitn (n + 1) rest := by
  have hall : ∀ c ∈ text.toList, decide (c ≠ ':') = true := fun c hc =>
    decide_eq_true fun hcolon => h (hcolon ▸ hc)
  rw [splitn, takeWhile_append_of_pos hall, dropWhile_append_of_pos hall]
  simp

/-- A part in front of a colon never has one itself. -/
theorem unsplit_of_splitn {n : ℕ} {cs : List Char} {part : String} {parts : List String}
    (h : splitn (n + 2) cs = part :: parts) : Unsplit part := by
  rw [splitn] at h
  obtain ⟨rfl, -⟩ := List.cons.inj h
  intro hmem
  rw [String.toList_ofList] at hmem
  simpa using all_eq_true.mp all_takeWhile _ hmem

theorem splitn_one (text : String) : splitn 1 text.toList = [text] := by
  rw [splitn, String.ofList_toList]

/-! ### Printed numbers -/

theorem parseI64_of_digits {digits : List Char} (hne : digits ≠ []) (hdigits : ∀ c ∈ digits, c.isDigit = true) :
    parseI64 (String.ofList digits) =
      if digitsValue digits < 2 ^ 63 then some (digitsValue digits : ℤ) else none := by
  obtain ⟨c, cs, rfl⟩ := exists_cons_of_ne_nil hne
  have hc := hdigits c mem_cons_self
  have hall : (c :: cs).any (fun c => !c.isDigit) = false := by
    simpa using fun c' hc' => hdigits c' hc'
  unfold parseI64
  rw [String.toList_ofList]
  split
  next negative digits hmatch =>
  have hsplit : (negative, digits) = (false, c :: cs) := by
    rw [← hmatch]
    split
    · next heq => cases heq; exact absurd hc (by decide)
    · next heq => cases heq; exact absurd hc (by decide)
    · rfl
  cases hsplit
  simp only [isEmpty_cons, hall, Bool.false_eq_true, or_self, if_false]
  have hlow : -2 ^ 63 ≤ (digitsValue (c :: cs) : ℤ) := by omega
  simp only [hlow, true_and]
  refine if_congr ?_ rfl rfl
  omega

variable (sentAt n : ℕ) (accountId conversationId : String) (item : MessageRecord)

/-- Printing a number and reading it back is the identity below `2^63`. -/
theorem parseI64_toString : parseI64 (toString n) = if n < 2 ^ 63 then some (n : ℤ) else none := by
  have hvalue : digitsValue (Nat.toDigits 10 n) = n := Nat.ofDigitChars_ten_toDigits
  rw [Nat.toString_eq_repr, Nat.repr_eq_ofList_toDigits, parseI64_of_digits, hvalue]
  · exact Nat.toDigits_ne_nil
  · exact fun c hc => Nat.isDigit_of_mem_toDigits (by decide) (by decide) hc

theorem unsplit_toString : Unsplit (toString n) := by
  intro h
  rw [Nat.toString_eq_repr, Nat.toList_repr] at h
  exact absurd (Nat.isDigit_of_mem_toDigits (by decide) (by decide) h) (by decide)

/-! ### The four cursors -/

/-- The id at the end of a cursor. -/
def IdFits (id : String) : Prop := id ≠ "" ∧ id.utf8ByteSize ≤ 128
  deriving Decidable

/-- The sort key of a message, as its cursor prints it. -/
def KeyFits (id : String) : Prop := sentAt < 2 ^ 63 ∧ IdFits id
  deriving Decidable

theorem decodeCursorKey_toString (id : String) : decodeCursorKey [toString sentAt, id] =
      if KeyFits sentAt id then .ok ((sentAt : ℤ), id) else .error .invalidCursor := by
  have hnonneg : ¬((sentAt : ℤ) < 0) := by omega
  unfold decodeCursorKey
  dsimp only
  rw [parseI64_toString]
  by_cases hlt : sentAt < 2 ^ 63
  · rw [if_pos hlt]
    by_cases hid : IdFits id
    · rw [if_pos ⟨hlt, hid⟩]
      simp [hnonneg, hid.1, Nat.not_lt.mpr hid.2]
    · rw [if_neg fun h => hid h.2]
      dsimp only
      refine if_pos ?_
      by_contra hnone
      rw [not_or, not_or, Nat.not_lt] at hnone
      exact hid hnone.2
  · rw [if_neg hlt, if_neg fun h => hlt h.1]

theorem splitn_of_encodeMessageCursor : (encodeMessageCursor accountId conversationId item).toList.drop 3 =
      accountId.toList ++ ':' :: (conversationId.toList ++ ':' ::
        ((toString item.sentAt).toList ++ ':' :: item.id.toList)) := by
  simp [encodeMessageCursor, messageCursorPrefix, String.toList_append]

theorem decode_encodeMessageCursor :
    decodeMessageCursor (encodeMessageCursor accountId conversationId item) accountId conversationId =
      if Unsplit accountId ∧ Unsplit conversationId ∧ KeyFits item.sentAt item.id then
        .ok ((item.sentAt : ℤ), item.id)
      else .error .invalidCursor := by
  unfold decodeMessageCursor
  rw [splitn_of_encodeMessageCursor]
  by_cases haccount : Unsplit accountId
  · rw [splitn_cons haccount]
    by_cases hconversation : Unsplit conversationId
    · rw [splitn_cons hconversation, splitn_cons (unsplit_toString _), splitn_one]
      simp only [haccount, hconversation, decodeCursorKey_toString, and_self, true_and, if_true]
    · rw [if_neg fun h => hconversation h.2.1]
      cases hparts : splitn 3 (conversationId.toList ++ ':' ::
          ((toString item.sentAt).toList ++ ':' :: item.id.toList)) with
      | nil => rfl
      | cons part parts =>
        exact if_neg fun h : accountId = accountId ∧ part = conversationId =>
          hconversation (h.2 ▸ unsplit_of_splitn hparts)
  · rw [if_neg fun h => haccount h.1]
    split
    · next part next key hparts =>
      exact if_neg fun h : part = accountId ∧ next = conversationId =>
        haccount (h.1 ▸ unsplit_of_splitn hparts)
    · rfl

theorem decode_encodeSearchMessageCursor :
    decodeSearchMessageCursor (encodeSearchMessageCursor accountId item) accountId =
      if Unsplit accountId ∧ KeyFits item.sentAt item.id then .ok ((item.sentAt : ℤ), item.id)
      else .error .invalidCursor := by
  have htext : (encodeSearchMessageCursor accountId item).toList = searchMessageCursorPrefix.toList ++
      (accountId.toList ++ ':' :: ((toString item.sentAt).toList ++ ':' :: item.id.toList)) := by
    simp [encodeSearchMessageCursor, String.toList_append]
  have hdrop : (encodeSearchMessageCursor accountId item).toList.drop 3 =
      accountId.toList ++ ':' :: ((toString item.sentAt).toList ++ ':' :: item.id.toList) := by
    rw [htext]
    rfl
  unfold decodeSearchMessageCursor
  rw [if_pos (htext ▸ prefix_append _ _), hdrop]
  by_cases haccount : Unsplit accountId
  · rw [splitn_cons haccount, splitn_cons (unsplit_toString _), splitn_one]
    simp only [haccount, decodeCursorKey_toString, true_and, if_true]
  · rw [if_neg fun h => haccount h.1]
    split
    · next part key hparts =>
      exact if_neg fun h : part = accountId => haccount (h ▸ unsplit_of_splitn hparts)
    · rfl

/-- The sort key of a conversation, as its cursor prints it. -/
def ConversationKeyFits (item : ConversationSummary) : Prop :=
  (∀ at_ ∈ item.lastMessageAt, at_ < 2 ^ 63) ∧ IdFits item.id
  deriving Decidable

/-- The flag and the number a conversation cursor prints for its row's time. -/
def printedTime (lastMessageAt : Option ℕ) : String × ℕ :=
  match lastMessageAt with
  | some at_ => ("0", at_)
  | none => ("1", 0)

theorem toList_encodeConversationCursor (item : ConversationSummary) :
    (encodeConversationCursor accountId item).toList = "v2".toList ++ ':' :: (accountId.toList ++ ':' ::
      ((printedTime item.lastMessageAt).1.toList ++ ':' ::
        ((toString (printedTime item.lastMessageAt).2).toList ++ ':' :: item.id.toList))) := by
  cases h : item.lastMessageAt <;> simp [encodeConversationCursor, printedTime, h, String.toList_append]

theorem decode_encodeConversationCursor (item : ConversationSummary) :
    decodeConversationCursor (encodeConversationCursor accountId item) accountId =
      if Unsplit accountId ∧ ConversationKeyFits item then
        .ok ⟨item.lastMessageAt.map Int.ofNat, item.id⟩
      else .error .invalidCursor := by
  have hflag : Unsplit (printedTime item.lastMessageAt).1 := by
    cases item.lastMessageAt with
    | none => exact (by decide : Unsplit "1")
    | some => exact (by decide : Unsplit "0")
  have hfits : (∀ at_ ∈ item.lastMessageAt, at_ < 2 ^ 63) ↔ (printedTime item.lastMessageAt).2 < 2 ^ 63 := by
    cases item.lastMessageAt <;> simp [printedTime]
  unfold decodeConversationCursor
  rw [toList_encodeConversationCursor, splitn_cons (by decide)]
  by_cases haccount : Unsplit accountId
  · rw [splitn_cons haccount, splitn_cons hflag, splitn_cons (unsplit_toString _), splitn_one]
    simp only [ne_eq, not_true_eq_false, or_self, if_false, parseI64_toString]
    by_cases hlt : (printedTime item.lastMessageAt).2 < 2 ^ 63
    · rw [if_pos hlt]
      by_cases hid : IdFits item.id
      · rw [if_pos ⟨haccount, hfits.mpr hlt, hid⟩]
        have hnonneg : ¬(((printedTime item.lastMessageAt).2 : ℤ) < 0) := by omega
        simp only [hnonneg, hid.1, Nat.not_lt.mpr hid.2, or_self, if_false]
        cases item.lastMessageAt <;> simp [printedTime]
      · rw [if_neg fun h => hid h.2.2]
        refine if_pos ?_
        by_contra hnone
        rw [not_or, not_or, Nat.not_lt] at hnone
        exact hid hnone.2
    · rw [if_neg hlt, if_neg fun h => hlt (hfits.mp h.2.1)]
  · rw [if_neg fun h => haccount h.1]
    split
    · next version part flag time id hparts =>
      obtain ⟨-, hparts⟩ := List.cons.inj hparts
      exact if_pos (.inr fun h => haccount (h ▸ unsplit_of_splitn hparts))
    · rfl

theorem decode_encodeContactCursor (item : ContactSummary) :
    decodeContactCursor (encodeContactCursor accountId item) accountId =
      if Unsplit accountId ∧ IdFits item.peerKey then .ok (item.kind.asStr, item.peerKey)
      else .error .invalidCursor := by
  have htext : (encodeContactCursor accountId item).toList = "c1".toList ++ ':' :: (accountId.toList ++ ':' ::
      (item.kind.asStr.toList ++ ':' :: item.peerKey.toList)) := by
    simp [encodeContactCursor, String.toList_append]
  have hkind : Unsplit item.kind.asStr := by
    cases item.kind <;> decide
  have hknown : ¬(item.kind.asStr ≠ "contact" ∧ item.kind.asStr ≠ "group") := by
    cases item.kind <;> decide
  unfold decodeContactCursor
  rw [htext, splitn_cons (by decide)]
  by_cases haccount : Unsplit accountId
  · rw [splitn_cons haccount, splitn_cons hkind, splitn_one]
    simp only [ne_eq, not_true_eq_false, or_self, if_false]
    rw [if_neg hknown]
    by_cases hid : IdFits item.peerKey
    · rw [if_neg (not_or.mpr ⟨hid.1, Nat.not_lt.mpr hid.2⟩), if_pos ⟨haccount, hid⟩]
    · have hbad : item.peerKey = "" ∨ 128 < item.peerKey.utf8ByteSize := by
        by_contra hnone
        rw [not_or, Nat.not_lt] at hnone
        exact hid hnone
      rw [if_pos hbad, if_neg fun h => hid h.2]
  · rw [if_neg fun h => haccount h.1]
    split
    · next version part kind peerKey hparts =>
      obtain ⟨-, hparts⟩ := List.cons.inj hparts
      exact if_pos (.inr fun h => haccount (h ▸ unsplit_of_splitn hparts))
    · rfl

end SignalConnector
