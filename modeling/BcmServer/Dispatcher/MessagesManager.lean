import BcmServer.Dispatcher.Channel

/-!
# BcmServer.Dispatcher.MessagesManager — envelopes that are stored and read back

A message for a device that is offline is stored as a row and made an envelope again when
the device has come back. The row has no place for the legacy message and the push class:
a recipient who was online gets them with the envelope, and one who was offline does not.

The mailboxes of all devices are one table here. What has been stored and not deleted since
is kept beside it as a list of letters; `run_rows` says that the table is their rows in every
run, and `read_back_iff` which letters are read as they were written.
-/

namespace BcmServer.Dispatcher

open BcmServer.Util

/-! ## The table -/

/-- The rows of `StoredMessages`, oldest first -/
abbrev StoredMessages := List StoredMessage

/-- What `StoredMessages::get` answers -/
inductive RowsRead where
  | rows (messages : List StoredMessage)
  | noSuchData
  | failed
deriving DecidableEq, Repr

namespace StoredMessages

/-- The rows of a device -/
def mailbox (db : StoredMessages) (address : DispatchAddress) : List StoredMessage :=
  db.filter fun m => m.destination = address.uid ∧ m.destinationdeviceid = address.deviceid

def get (db : StoredMessages) (address : DispatchAddress) (maxCount : ℕ) : RowsRead :=
  match (db.mailbox address).take maxCount with
  | [] => .noSuchData
  | messages => .rows messages

def del (db : StoredMessages) (destination : Bytes) (msgIds : List UInt64) : StoredMessages :=
  db.filter fun m => ¬ (m.destination = destination ∧ m.id ∈ msgIds)

/-- All rows of a user, or those of one device -/
def clear (db : StoredMessages) (destination : Bytes) (destinationDeviceId : Option UInt32) :
    StoredMessages :=
  db.filter fun m => ¬ (m.destination = destination ∧
    (destinationDeviceId = none ∨ destinationDeviceId = some m.destinationdeviceid))

end StoredMessages

namespace MessagesManager

/-- `store`: whether the row was written, and the number of rows of the device. The database
chooses the id of a row that it takes. -/
def store (db : StoredMessages) (destination : DispatchAddress) (registrationid : UInt32)
    (envelope : Envelope) (written : Option UInt64) : Bool × ℕ × StoredMessages :=
  match written with
  | none => (false, 0, db)
  | some id =>
      let db := db ++ [storedMessage id destination registrationid envelope]
      (true, (db.mailbox destination).length, db)

/-- `get`: whether the rows could be read, the rows, and whether there may be more -/
def get (read : RowsRead) (maxCount : ℕ) : Bool × List StoredMessage × Bool :=
  match read with
  | .noSuchData => (true, [], false)
  | .failed => (false, [], false)
  | .rows messages => (true, messages, messages.length ≥ maxCount)

end MessagesManager

/-! ## Letters -/

/-- An envelope that was stored for a device -/
structure Letter where
  id : UInt64
  address : DispatchAddress
  registrationid : UInt32
  envelope : Envelope
deriving DecidableEq, Repr

def Letter.row (l : Letter) : StoredMessage :=
  storedMessage l.id l.address l.registrationid l.envelope

/-- What happens to the mailboxes. Without an id or a success the database did nothing. -/
inductive MailEvent where
  | store (address : DispatchAddress) (registrationid : UInt32) (envelope : Envelope)
      (written : Option UInt64)
  | del (destination : Bytes) (msgIds : List UInt64) (done : Bool)
  | clear (destination : Bytes) (destinationDeviceId : Option UInt32) (done : Bool)

namespace MailEvent

def apply (db : StoredMessages) : MailEvent → StoredMessages
  | store address registrationid envelope written =>
      (MessagesManager.store db address registrationid envelope written).2.2
  | del destination msgIds done => if done then db.del destination msgIds else db
  | clear destination destinationDeviceId done =>
      if done then db.clear destination destinationDeviceId else db

/-- The letters after an event -/
def letters (ls : List Letter) : MailEvent → List Letter
  | store address registrationid envelope written =>
      ls ++ (written.map fun id => ⟨id, address, registrationid, envelope⟩).toList
  | del destination msgIds done =>
      if done then ls.filter fun l => ¬ (l.address.uid = destination ∧ l.id ∈ msgIds) else ls
  | clear destination destinationDeviceId done =>
      if done then
        ls.filter fun l => ¬ (l.address.uid = destination ∧
          (destinationDeviceId = none ∨ destinationDeviceId = some l.address.deviceid))
      else ls

end MailEvent

/-! ## Reading back -/

/-- What is read of a letter: the legacy message and the push class are gone. -/
theorem convert_row (l : Letter) :
    convert l.row = { l.envelope with legacymessage := [], push := 0 } := rfl

/-- Which letters are read as they were written -/
theorem convert_row_eq_iff (l : Letter) :
    convert l.row = l.envelope ↔ l.envelope.legacymessage = [] ∧ l.envelope.push = 0 := by
  rw [convert_row]
  constructor
  · intro h
    exact ⟨(congrArg Envelope.legacymessage h).symm, (congrArg Envelope.push h).symm⟩
  · rintro ⟨hlegacy, hpush⟩
    rw [← hlegacy, ← hpush]

/-- The table stays the rows of the letters. -/
theorem apply_rows (ls : List Letter) (e : MailEvent) :
    e.apply (ls.map Letter.row) = (e.letters ls).map Letter.row := by
  cases e with
  | store address registrationid envelope written =>
      cases written with
      | none => simp [MailEvent.apply, MailEvent.letters, MessagesManager.store]
      | some id =>
          simp [MailEvent.apply, MailEvent.letters, MessagesManager.store, Letter.row]
  | del destination msgIds done =>
      cases done with
      | false => rfl
      | true =>
          simp only [MailEvent.apply, MailEvent.letters, if_true, StoredMessages.del,
            List.filter_map]
          rfl
  | clear destination destinationDeviceId done =>
      cases done with
      | false => rfl
      | true =>
          simp only [MailEvent.apply, MailEvent.letters, if_true, StoredMessages.clear,
            List.filter_map]
          rfl

theorem run_rows (ls : List Letter) (events : List MailEvent) :
    events.foldl MailEvent.apply (ls.map Letter.row) =
      (events.foldl MailEvent.letters ls).map Letter.row := by
  induction events generalizing ls with
  | nil => rfl
  | cons e events ih => rw [List.foldl_cons, List.foldl_cons, apply_rows, ih]

/-- A page of a mailbox is the rows of the first letters for the device. -/
theorem get_rows (ls : List Letter) (address : DispatchAddress) (maxCount : ℕ) :
    (MessagesManager.get (StoredMessages.get (ls.map Letter.row) address maxCount) maxCount).2.1 =
      ((ls.filter fun l => l.address = address).take maxCount).map Letter.row := by
  have hmailbox : StoredMessages.mailbox (ls.map Letter.row) address =
      (ls.filter fun l => l.address = address).map Letter.row := by
    rw [StoredMessages.mailbox, List.filter_map]
    congr 1
    refine List.filter_congr fun l _ => ?_
    rw [Bool.eq_iff_iff, Function.comp_apply, decide_eq_true_iff, decide_eq_true_iff]
    constructor
    · rintro ⟨huid, hdevice⟩
      cases address
      exact congrArg₂ DispatchAddress.mk huid hdevice
    · rintro rfl
      exact ⟨rfl, rfl⟩
  rw [StoredMessages.get, hmailbox, ← List.map_take]
  cases ((ls.filter fun l => l.address = address).take maxCount).map Letter.row with
  | nil => rfl
  | cons m messages => rfl

/-- After any run each row of a page is that of a letter for the device, in their order. It is
read as it was written if and only if the letter has no legacy message and the push class zero. -/
theorem read_back_iff (events : List MailEvent) (address : DispatchAddress) (maxCount : ℕ) :
    List.Forall₂ (fun l m => m = l.row ∧ (convert m = l.envelope ↔
        l.envelope.legacymessage = [] ∧ l.envelope.push = 0))
      (((events.foldl MailEvent.letters []).filter fun l => l.address = address).take maxCount)
      (MessagesManager.get (StoredMessages.get (events.foldl MailEvent.apply []) address maxCount)
        maxCount).2.1 := by
  have hrun := run_rows [] events
  rw [List.map_nil] at hrun
  rw [hrun, get_rows, List.forall₂_map_right_iff]
  exact List.forall₂_same.mpr fun l _ => ⟨rfl, convert_row_eq_iff l⟩

/-- A message with a body of one byte, for a call -/
def callEnvelope : Envelope where
  type := .other 1
  timestamp := 5
  source := [7]
  sourcedevice := 1
  sourceregistration := 3
  sourceextra := [8]
  relay := []
  content := [9]
  legacymessage := [1]
  push := 1

/-- It is stored for a device that is offline, and read without the body and as a message that
is none of a call. -/
theorem not_read_back :
    ((MessagesManager.get (StoredMessages.get
      ((MailEvent.store ⟨[6], 1⟩ 2 callEnvelope (some 0)).apply []) ⟨[6], 1⟩ 50) 50).2.1).map
        convert = [{ callEnvelope with legacymessage := [], push := 0 }] ∧
    callEnvelope ≠ { callEnvelope with legacymessage := [], push := 0 } := by
  decide

end BcmServer.Dispatcher
