import Bussard.Lib.Fallible
import Bussard.Lib.Run
import Bussard.Service.KeyStore

/-! One side of a certificate enrolment: bussard opens the envelopes it polls from a relay. The
first phone whose message opens owns the session, and every other phone is refused. -/
namespace Bussard.Service

/-- An encrypted message as it travels through the relay; `pk` is always the phone's key. -/
structure Envelope where
  v : Nat
  pk : String
  n : String
  c : String
  deriving DecidableEq

def version : Nat := 2
def publicKeyLen : Nat := 32
def nonceLen : Nat := 12
def maxRefusedAnswers : Nat := 16
def maxRefusedTracked : Nat := 1024
def maxWaitSecs : Nat := 25

structure CertificateOutcome where
  status : EnrolStatus
  serial : Option String
  ia : Option String
  name : Option String
  message : Option String
  deriving DecidableEq

/-- Whether the certificate's key is in the store after this outcome. -/
def EnrolStatus.isStored : EnrolStatus → Bool
  | .stored | .unassigned => true
  | _ => false

/-- What the sender of a certificate is told: a label that does not check names no device. -/
def CertificateOutcome.told (outcome : CertificateOutcome) : CertificateOutcome :=
  if outcome.status = .invalid then { outcome with ia := none, name := none } else outcome

/-- A message from the page. -/
inductive UpMessage where
  | hello
  | certificate (id : Nat) (text : String)
  | done
  deriving DecidableEq

inductive CloseReason where
  | done
  | stopped
  | idleTimeout
  | maxDuration
  deriving DecidableEq

/-- A message to the page. -/
inductive DownMessage where
  | result (id : Nat) (outcome : CertificateOutcome)
  | refused
  | closed (stored : Nat) (reason : CloseReason)
  deriving DecidableEq

inductive EnrollEvent where
  | phoneJoined
  | phoneRefused (phones : Nat)
  | certificate (outcome : CertificateOutcome)
  | ignored (reason : String)
  | phoneDone
  deriving DecidableEq

inductive EnrollEnd where
  | phoneDone
  | stopped
  | connectTimeout
  | idleTimeout
  | maxDuration
  | expired
  deriving DecidableEq

inductive RelayError where
  | notFound
  | exists
  | limit
  | status (what : String) (status : Nat)
  | transport (message : String)
  | decode (what : String)
  | tooLarge
  deriving DecidableEq

inductive EnrollSessionError where
  | crypto (message : String)
  | relay (source : RelayError)
  deriving DecidableEq

structure RelayMessage where
  seq : Nat
  envelope : Option Envelope

structure RelayPoll where
  messages : List RelayMessage
  closed : Bool

/-- Durations and times are nanoseconds of the monotonic clock. -/
structure Timeouts where
  connect : Nat := 600000000000
  idle : Nat := 900000000000
  max : Nat := 14400000000000

structure RunOptions where
  waitSecs : Nat := 5
  timeouts : Timeouts := {}

/-- The ciphers and encodings of a session: its id and its own key pair are in them. -/
structure EnrollCrypto (Key : Type) where
  encode : List UInt8 → String
  decode : String → Option (List UInt8)
  bussardKey : List UInt8 → Except String Key
  openUp : Key → List UInt8 → List UInt8 → Except String (List UInt8)
  sealDown : Key → List UInt8 → List UInt8 → Except String (List UInt8)
  readUp : List UInt8 → Option UpMessage
  encodeDown : DownMessage → List UInt8

structure Owner (Key : Type) where
  phone : List UInt8
  key : Key

inductive Opened (Key : Type) where
  | owner (plaintext : List UInt8)
  | other (phone : List UInt8) (key : Key)

/-- What became of one envelope. -/
inductive Handled where
  | hello
  | certificate (reply : Envelope) (outcome : CertificateOutcome)
  | done
  | refused (reply : Option Envelope) (first : Bool)
  | ignored (reason : String)

structure EnrollSession (Key : Type) where
  owner : Option (Owner Key) := none
  refused : List (List UInt8) := []
  refusedAnswers : Nat := 0
  stored : Nat := 0
  certificates : Nat := 0

/-- Where a certificate goes, and what it answers. -/
abbrev CertificateSink (Store : Type) := Store → String → CertificateOutcome × Store

section Session

variable {Key Store : Type} (crypto : EnrollCrypto Key) (sink : CertificateSink Store)

def decodeFixed (len : Nat) (text : String) : Option (List UInt8) :=
  (crypto.decode text).filter (·.length = len)

namespace EnrollSession

/-- Decrypts an envelope. The first phone whose message opens becomes the owner. -/
def openEnvelope (session : EnrollSession Key) (envelope : Envelope) :
    Except String (Opened Key) × EnrollSession Key :=
  if envelope.v ≠ version then
    (.error ("unsupported version " ++ toString envelope.v), session)
  else
    match decodeFixed crypto publicKeyLen envelope.pk, decodeFixed crypto nonceLen envelope.n,
        crypto.decode envelope.c with
    | none, _, _ => (.error "the phone key is not 32 bytes of base64url", session)
    | some _, none, _ => (.error "the nonce is not 12 bytes of base64url", session)
    | some _, some _, none => (.error "the ciphertext is not base64url", session)
    | some phone, some nonce, some ciphertext =>
        match session.owner.filter (·.phone = phone) with
        | some owner => ((crypto.openUp owner.key nonce ciphertext).map .owner, session)
        | none =>
            match crypto.bussardKey phone with
            | .error e => (.error e, session)
            | .ok key =>
                match crypto.openUp key nonce ciphertext with
                | .error e => (.error e, session)
                | .ok plaintext =>
                    if session.owner.isSome then
                      (.ok (.other phone key), session)
                    else
                      (.ok (.owner plaintext), { session with owner := some ⟨phone, key⟩ })

/-- A message for a phone under its key and a fresh nonce, if there is one. -/
def sealed (key : Key) (phone : List UInt8) (message : DownMessage)
    (nonce : Except String (List UInt8)) : Except EnrollSessionError Envelope := do
  let nonce ← nonce.mapError .crypto
  let ciphertext ← (crypto.sealDown key nonce (crypto.encodeDown message)).mapError .crypto
  return ⟨version, crypto.encode phone, crypto.encode nonce, crypto.encode ciphertext⟩

def sealOwner (session : EnrollSession Key) (message : DownMessage)
    (nonce : Except String (List UInt8)) : Except EnrollSessionError Envelope :=
  match session.owner with
  | some owner => sealed crypto owner.key owner.phone message nonce
  | none => .error (.crypto "AES-GCM encryption failed")

/-- Refuses a message from a phone that does not own the session. -/
def refuse (session : EnrollSession Key) (phone : List UInt8) (key : Key)
    (nonce : Except String (List UInt8)) :
    Except EnrollSessionError Handled × EnrollSession Key :=
  if phone ∈ session.refused then
    (.ok (.refused none false), session)
  else
    let refused :=
      if session.refused.length < maxRefusedTracked then session.refused ++ [phone]
      else session.refused
    let session := { session with refused }
    if session.refusedAnswers < maxRefusedAnswers then
      ((sealed crypto key phone .refused nonce).map fun reply => .refused (some reply) true,
        { session with refusedAnswers := session.refusedAnswers + 1 })
    else
      (.ok (.refused none true), session)

/-- Handles one envelope. -/
def handle (session : EnrollSession Key) (store : Store) (envelope : Envelope)
    (nonce : Except String (List UInt8)) :
    Except EnrollSessionError Handled × EnrollSession Key × Store :=
  match openEnvelope crypto session envelope with
  | (.error reason, session) => (.ok (.ignored reason), session, store)
  | (.ok (.other phone key), session) =>
      let (handled, session) := refuse crypto session phone key nonce
      (handled, session, store)
  | (.ok (.owner plaintext), session) =>
      match crypto.readUp plaintext with
      | none => (.ok (.ignored "not a protocol message"), session, store)
      | some .hello => (.ok .hello, session, store)
      | some .done => (.ok .done, session, store)
      | some (.certificate id text) =>
          let (outcome, store) := sink store text
          let stored := if outcome.status.isStored then session.stored + 1 else session.stored
          let session := { session with certificates := session.certificates + 1, stored }
          ((sealOwner crypto session (.result id outcome.told) nonce).map
            fun reply => .certificate reply outcome, session, store)

end EnrollSession

/-- The next deadline and the end it means. -/
def deadline (started : Nat) (lastSeen : Option Nat) (timeouts : Timeouts) : Nat × EnrollEnd :=
  let next : Nat × EnrollEnd := match lastSeen with
    | none => (started + timeouts.connect, .connectTimeout)
    | some seen => (seen + timeouts.idle, .idleTimeout)
  if next.1 < started + timeouts.max then next else (started + timeouts.max, .maxDuration)

inductive Phase where
  | polling
  /-- The messages of the last poll that are not handled yet, and whether it was the last one. -/
  | handling (messages : List RelayMessage) (closed : Bool)
  | ended (outcome : Except EnrollSessionError EnrollEnd)

/-- A session that runs: where its loop is, what it has read and where its certificates go. -/
structure EnrollLoop (Key Store : Type) where
  session : EnrollSession Key := {}
  store : Store
  started : Nat
  phase : Phase := .polling
  cursor : Nat := 0
  lastSeen : Option Nat := none

/-- The loop's next step: a poll with the answer it gets, or a message of the last poll with the
time it is handled, the nonce of an answer and what the relay answers to it. -/
inductive LoopInput where
  | poll (stop : Bool) (now : Nat) (answer : Except RelayError RelayPoll)
  | message (now : Nat) (nonce : Except String (List UInt8)) (posted : Except RelayError Nat)

/-- What the loop does. -/
inductive LoopAction where
  | polled (cursor wait : Nat)
  | took (envelope : Envelope) (now : Nat)
  | resulted (reply : Envelope) (accepted : Bool)
  | refused (reply : Envelope) (accepted : Bool)
  | told (event : EnrollEvent)

def accepted : Except RelayError Nat → Bool
  | .ok _ => true
  | .error _ => false

/-- The phase with some messages left of a poll. -/
def Phase.left (closed : Bool) : List RelayMessage → Phase
  | [] => if closed then .ended (.ok .expired) else .polling
  | message :: rest => .handling (message :: rest) closed

namespace EnrollLoop

def pollTurn (options : RunOptions) (loop : EnrollLoop Key Store) (stop : Bool) (now : Nat)
    (answer : Except RelayError RelayPoll) : EnrollLoop Key Store × List LoopAction :=
  if stop then
    ({ loop with phase := .ended (.ok .stopped) }, [])
  else
    let (end', timeout) := deadline loop.started loop.lastSeen options.timeouts
    if end' ≤ now then
      ({ loop with phase := .ended (.ok timeout) }, [])
    else
      -- Never past the deadline, rounded up to a whole second.
      let left := ((end' - now) / 1000000 + 999) / 1000
      let wait := min (min options.waitSecs maxWaitSecs) left
      let phase : Phase := match answer with
        | .ok poll => .left poll.closed poll.messages
        | .error .notFound => .ended (.ok .expired)
        | .error e => .ended (.error (.relay e))
      ({ loop with phase }, [.polled loop.cursor wait])

/-- What the loop does with a message that was handled. -/
def react (loop : EnrollLoop Key Store) (now : Nat) (posted : Except RelayError Nat) :
    Handled → EnrollLoop Key Store × List LoopAction
  | .hello => ({ loop with lastSeen := some now }, [])
  | .certificate reply outcome =>
      let loop := { loop with lastSeen := some now }
      match posted with
      | .ok _ => (loop, [.resulted reply true, .told (.certificate outcome)])
      | .error e => ({ loop with phase := .ended (.error (.relay e)) }, [.resulted reply false])
  | .done => ({ loop with phase := .ended (.ok .phoneDone) }, [.told .phoneDone])
  | .refused reply first =>
      (loop, (reply.map fun reply => LoopAction.refused reply (accepted posted)).toList ++
        if first then [.told (.phoneRefused loop.session.refused.length)] else [])
  | .ignored reason => (loop, [.told (.ignored reason)])

def messageTurn (loop : EnrollLoop Key Store) (message : RelayMessage) (rest : List RelayMessage)
    (closed : Bool) (now : Nat) (nonce : Except String (List UInt8))
    (posted : Except RelayError Nat) : EnrollLoop Key Store × List LoopAction :=
  let loop := { loop with cursor := max loop.cursor message.seq, phase := .left closed rest }
  match message.envelope with
  | none => (loop, [.told (.ignored "not an envelope")])
  | some envelope =>
      let (handled, session, store) := loop.session.handle crypto sink loop.store envelope nonce
      let joined : List LoopAction :=
        if loop.session.owner.isNone && session.owner.isSome then [.told .phoneJoined] else []
      let loop := { loop with session, store }
      match handled with
      | .error e => ({ loop with phase := .ended (.error e) }, [.took envelope now])
      | .ok handled =>
          let (loop, actions) := loop.react now posted handled
          (loop, .took envelope now :: joined ++ actions)

def step (options : RunOptions) (loop : EnrollLoop Key Store) :
    LoopInput → EnrollLoop Key Store × List LoopAction
  | .poll stop now answer =>
      match loop.phase with
      | .polling => pollTurn options loop stop now answer
      | _ => (loop, [])
  | .message now nonce posted =>
      match loop.phase with
      | .handling (message :: rest) closed =>
          messageTurn crypto sink loop message rest closed now nonce posted
      | _ => (loop, [])

end EnrollLoop

/-- What an envelope opens to, and for which phone, under the key bussard shares with that phone. -/
def opens (envelope : Envelope) : Option (Owner Key × List UInt8) :=
  if envelope.v ≠ version then
    none
  else
    (decodeFixed crypto publicKeyLen envelope.pk).bind fun phone =>
      (decodeFixed crypto nonceLen envelope.n).bind fun nonce =>
        (crypto.decode envelope.c).bind fun ciphertext =>
          (crypto.bussardKey phone).toOption.bind fun key =>
            ((crypto.openUp key nonce ciphertext).toOption).map fun plaintext =>
              (⟨phone, key⟩, plaintext)

/-- The phone of the first envelope that opens. -/
def firstPhone (envelopes : List Envelope) : Option (Owner Key) :=
  envelopes.findSome? fun envelope => (opens crypto envelope).map Prod.fst

/-- The message of an envelope that a phone sent. -/
def messageFrom (owner : Owner Key) (envelope : Envelope) : Option UpMessage :=
  (opens crypto envelope).bind fun opened =>
    if opened.1.phone = owner.phone then crypto.readUp opened.2 else none

def certificateFrom (owner : Owner Key) (envelope : Envelope) : Option (Nat × String) :=
  match messageFrom crypto owner envelope with
  | some (.certificate id text) => some (id, text)
  | _ => none

/-- The certificates of the first phone, in the order they came. -/
def ownCertificates (envelopes : List Envelope) : List (Nat × String) :=
  match firstPhone crypto envelopes with
  | none => []
  | some owner => envelopes.filterMap (certificateFrom crypto owner)

/-- The answers of a store to some certificates, and the store after them. -/
def enterAll (store : Store) (texts : List String) : List CertificateOutcome × Store :=
  texts.foldl (fun entered text =>
    (entered.1 ++ [(sink entered.2 text).1], (sink entered.2 text).2)) ([], store)

variable {crypto sink} {session : EnrollSession Key} {envelope : Envelope}
  {envelopes : List Envelope}

/-- The key of the owner is the one of its phone. -/
def EnrollSession.Keyed (crypto : EnrollCrypto Key) (session : EnrollSession Key) : Prop :=
  ∀ owner, session.owner = some owner → crypto.bussardKey owner.phone = .ok owner.key

/-- What opens was sealed with the key of its phone. -/
theorem opens_keyed {owner : Owner Key} {plaintext : List UInt8}
    (h : opens crypto envelope = some (owner, plaintext)) :
    crypto.bussardKey owner.phone = .ok owner.key := by
  unfold opens at h
  split at h
  · cases h
  · obtain ⟨phone, -, h⟩ := Option.bind_eq_some_iff.mp h
    obtain ⟨nonce, -, h⟩ := Option.bind_eq_some_iff.mp h
    obtain ⟨ciphertext, -, h⟩ := Option.bind_eq_some_iff.mp h
    obtain ⟨key, hKey, h⟩ := Option.bind_eq_some_iff.mp h
    obtain ⟨plain, -, h⟩ := Option.map_eq_some_iff.mp h
    cases h
    cases hFound : crypto.bussardKey phone with
    | error e =>
        rw [hFound] at hKey
        cases hKey
    | ok found =>
        rw [hFound] at hKey
        cases hKey
        rfl

/-- Opening an envelope: what does not open is dropped, the first phone becomes the owner, and of
the others the owner is told apart by its phone. -/
theorem openEnvelope_spec (hKeyed : session.Keyed crypto) (envelope : Envelope) :
    match opens crypto envelope with
    | none => (∃ reason, (session.openEnvelope crypto envelope).1 = .error reason) ∧
        (session.openEnvelope crypto envelope).2 = session
    | some (owner, plaintext) => session.openEnvelope crypto envelope =
        match session.owner with
        | none => (.ok (.owner plaintext), { session with owner := some owner })
        | some first => if first.phone = owner.phone then (.ok (.owner plaintext), session)
            else (.ok (.other owner.phone owner.key), session) := by
  unfold opens EnrollSession.openEnvelope
  by_cases hVersion : envelope.v ≠ version
  · rw [if_pos hVersion, if_pos hVersion]
    exact ⟨⟨_, rfl⟩, rfl⟩
  · rw [if_neg hVersion, if_neg hVersion]
    cases decodeFixed crypto publicKeyLen envelope.pk with
    | none => exact ⟨⟨_, rfl⟩, rfl⟩
    | some phone =>
    cases decodeFixed crypto nonceLen envelope.n with
    | none => exact ⟨⟨_, rfl⟩, rfl⟩
    | some nonce =>
    cases crypto.decode envelope.c with
    | none => exact ⟨⟨_, rfl⟩, rfl⟩
    | some ciphertext =>
        simp only [Option.bind_some]
        by_cases hOwn : ∃ first, session.owner = some first ∧ first.phone = phone
        · obtain ⟨first, hOwner, rfl⟩ := hOwn
          rw [hKeyed first hOwner, hOwner, Option.filter_some, if_pos (decide_eq_true rfl)]
          simp only [Except.toOption, Option.bind_some]
          cases crypto.openUp first.key nonce ciphertext with
          | error e => exact ⟨⟨e, rfl⟩, trivial⟩
          | ok plaintext =>
              simp only [Option.map_some, if_true]
              rfl
        · have hNone : session.owner.filter (fun first => first.phone = phone) = none := by
            rw [Option.filter_eq_none_iff]
            intro first hOwner hPhone
            exact hOwn ⟨first, hOwner, of_decide_eq_true hPhone⟩
          rw [hNone]
          cases crypto.bussardKey phone with
          | error e => exact ⟨⟨e, rfl⟩, rfl⟩
          | ok key =>
              simp only [Except.toOption, Option.bind_some]
              cases crypto.openUp key nonce ciphertext with
              | error e => exact ⟨⟨e, rfl⟩, rfl⟩
              | ok plaintext =>
                  simp only [Option.map_some]
                  cases hOwner : session.owner with
                  | none => rfl
                  | some first =>
                      have hOther : first.phone ≠ phone := fun hSame => hOwn ⟨first, hOwner, hSame⟩
                      simp only [Option.isSome_some, if_true, hOther, if_false]

theorem firstPhone_concat (envelopes : List Envelope) (envelope : Envelope) :
    firstPhone crypto (envelopes ++ [envelope]) =
      (firstPhone crypto envelopes).or ((opens crypto envelope).map Prod.fst) := by
  rw [firstPhone, List.findSome?_append, List.findSome?_singleton]
  rfl

theorem opens_of_no_phone (hNone : firstPhone crypto envelopes = none) :
    ∀ envelope ∈ envelopes, opens crypto envelope = none := by
  intro envelope hMem
  have hAll := List.findSome?_eq_none_iff.mp hNone envelope hMem
  exact Option.map_eq_none_iff.mp hAll

/-- One more envelope adds at most one certificate. -/
theorem ownCertificates_concat (envelopes : List Envelope) (envelope : Envelope) :
    ownCertificates crypto (envelopes ++ [envelope]) = ownCertificates crypto envelopes ++
      ((firstPhone crypto (envelopes ++ [envelope])).bind
        (certificateFrom crypto · envelope)).toList := by
  have hSplit := @firstPhone_concat _ crypto envelopes envelope
  cases hFirst : firstPhone crypto envelopes with
  | some owner =>
      rw [hFirst, Option.some_or] at hSplit
      simp only [ownCertificates, hSplit, hFirst, List.filterMap_append, Option.bind_some]
      cases hCertificate : certificateFrom crypto owner envelope with
      | none => simp [hCertificate]
      | some found => simp [hCertificate]
  | none =>
      have hNone (owner : Owner Key) : envelopes.filterMap (certificateFrom crypto owner) = [] := by
        rw [List.filterMap_eq_nil_iff]
        intro other hMem
        simp only [certificateFrom, messageFrom, opens_of_no_phone hFirst other hMem,
          Option.bind_none]
      rw [hFirst, Option.none_or] at hSplit
      cases hOpens : opens crypto envelope with
      | none =>
          rw [hOpens, Option.map_none] at hSplit
          simp only [ownCertificates, hSplit, hFirst, Option.bind_none, Option.toList_none,
            List.append_nil]
      | some opened =>
          rw [hOpens, Option.map_some] at hSplit
          simp only [ownCertificates, hSplit, hFirst, List.filterMap_append, hNone,
            Option.bind_some, List.nil_append]
          cases hCertificate : certificateFrom crypto opened.1 envelope with
          | none => simp [hCertificate]
          | some found => simp [hCertificate]

theorem enterAll_concat (store : Store) (texts : List String) (text : String) :
    enterAll sink store (texts ++ [text]) =
      ((enterAll sink store texts).1 ++ [(sink (enterAll sink store texts).2 text).1],
        (sink (enterAll sink store texts).2 text).2) := by
  rw [enterAll, List.foldl_append]
  rfl

theorem length_enterAll (store : Store) (texts : List String) :
    (enterAll sink store texts).1.length = texts.length := by
  induction texts using List.reverseRecOn with
  | nil => rfl
  | append_singleton texts text ih =>
      rw [enterAll_concat, List.length_append, List.length_append, ih]
      rfl

/-- What a session counts of the envelopes it has handled. -/
structure Counted (crypto : EnrollCrypto Key) (sink : CertificateSink Store) (store₀ : Store)
    (handled : List Envelope) (session : EnrollSession Key) (store : Store) : Prop where
  store : store = (enterAll sink store₀ ((ownCertificates crypto handled).map Prod.snd)).2
  certificates : session.certificates = (ownCertificates crypto handled).length
  stored : session.stored =
    (enterAll sink store₀ ((ownCertificates crypto handled).map Prod.snd)).1.countP
      (·.status.isStored)
  distinct : session.refused.Nodup
  tracked : session.refused.length ≤ maxRefusedTracked
  answers : session.refusedAnswers = min maxRefusedAnswers session.refused.length

/-- A session after some envelopes: the first phone owns it, and the others are refused. -/
structure Tally (crypto : EnrollCrypto Key) (sink : CertificateSink Store) (store₀ : Store)
    (handled : List Envelope) (session : EnrollSession Key) (store : Store) : Prop extends
    Counted crypto sink store₀ handled session store where
  owner : session.owner = firstPhone crypto handled
  others : ∀ phone ∈ session.refused, ∃ owner, session.owner = some owner ∧ owner.phone ≠ phone

/-- What is answered to an envelope. -/
def Answered (crypto : EnrollCrypto Key) (sink : CertificateSink Store) (handled : List Envelope)
    (before after : EnrollSession Key) (store : Store) (envelope : Envelope) :
    Except EnrollSessionError Handled → Prop
  | .ok (.certificate reply outcome) => ∃ id text nonce,
      ownCertificates crypto (handled ++ [envelope]) =
        ownCertificates crypto handled ++ [(id, text)] ∧
      outcome = (sink store text).1 ∧
      after.sealOwner crypto (.result id outcome.told) nonce = .ok reply ∧
      after.refused = before.refused ∧ after.refusedAnswers = before.refusedAnswers
  | .ok (.refused (some reply) _) => ∃ phone key nonce,
      ownCertificates crypto (handled ++ [envelope]) = ownCertificates crypto handled ∧
      crypto.bussardKey phone = .ok key ∧
      EnrollSession.sealed crypto key phone .refused nonce = .ok reply ∧
      phone ∉ before.refused ∧ after.refused = before.refused ++ [phone] ∧
      after.refusedAnswers = before.refusedAnswers + 1
  | .ok _ => ownCertificates crypto (handled ++ [envelope]) = ownCertificates crypto handled ∧
      before.refused <+: after.refused ∧ after.refusedAnswers = before.refusedAnswers
  | .error _ => before.refused <+: after.refused ∧
      before.refusedAnswers ≤ after.refusedAnswers ∧
      (ownCertificates crypto (handled ++ [envelope]) = ownCertificates crypto handled ∨
        ∃ certificate, ownCertificates crypto (handled ++ [envelope]) =
          ownCertificates crypto handled ++ [certificate])

variable {store₀ store : Store} {handled : List Envelope} {nonce : Except String (List UInt8)}

theorem firstPhone_keyed {owner : Owner Key} (h : firstPhone crypto handled = some owner) :
    crypto.bussardKey owner.phone = .ok owner.key := by
  obtain ⟨envelope, -, hOpens⟩ := List.exists_of_findSome?_eq_some h
  obtain ⟨⟨found, plaintext⟩, hFound, rfl⟩ := Option.map_eq_some_iff.mp hOpens
  exact opens_keyed hFound

/-- An envelope without a certificate of the owner changes no count of certificates. -/
theorem Counted.of_none (h : Counted crypto sink store₀ handled session store)
    (hNone : ownCertificates crypto (handled ++ [envelope]) = ownCertificates crypto handled)
    {after : EnrollSession Key} (hCertificates : after.certificates = session.certificates)
    (hStored : after.stored = session.stored) (hDistinct : after.refused.Nodup)
    (hTracked : after.refused.length ≤ maxRefusedTracked)
    (hAnswers : after.refusedAnswers = min maxRefusedAnswers after.refused.length) :
    Counted crypto sink store₀ (handled ++ [envelope]) after store := by
  refine ⟨?_, ?_, ?_, hDistinct, hTracked, hAnswers⟩
  · rw [hNone]
    exact h.store
  · rw [hNone, hCertificates]
    exact h.certificates
  · rw [hNone, hStored]
    exact h.stored

/-- A certificate of the owner is entered once. -/
theorem Counted.certificate (h : Counted crypto sink store₀ handled session store) {id : Nat}
    {text : String} (hOne : ownCertificates crypto (handled ++ [envelope]) =
      ownCertificates crypto handled ++ [(id, text)]) :
    Counted crypto sink store₀ (handled ++ [envelope])
      { session with
        certificates := session.certificates + 1
        stored := if (sink store text).1.status.isStored then session.stored + 1
          else session.stored } (sink store text).2 := by
  have hTexts : (ownCertificates crypto (handled ++ [envelope])).map Prod.snd =
      (ownCertificates crypto handled).map Prod.snd ++ [text] := by
    rw [hOne, List.map_append]
    rfl
  refine ⟨?_, ?_, ?_, h.distinct, h.tracked, h.answers⟩
  · rw [hTexts, enterAll_concat, ← h.store]
  · rw [hOne, List.length_append, h.certificates]
    rfl
  · rw [hTexts, enterAll_concat, List.countP_append, ← h.store, ← h.stored,
      List.countP_singleton]
    split
    · rfl
    · rfl

/-- Refusing a phone: it is remembered, and answered while few were. -/
theorem refuse_spec (h : Counted crypto sink store₀ handled session store)
    (hNone : ownCertificates crypto (handled ++ [envelope]) = ownCertificates crypto handled)
    {phone : List UInt8} {key : Key} (hKey : crypto.bussardKey phone = .ok key) :
    Counted crypto sink store₀ (handled ++ [envelope])
        (session.refuse crypto phone key nonce).2 store ∧
      (session.refuse crypto phone key nonce).2.owner = session.owner ∧
      (∀ other ∈ (session.refuse crypto phone key nonce).2.refused,
        other ∈ session.refused ∨ other = phone) ∧
      Answered crypto sink handled session (session.refuse crypto phone key nonce).2 store envelope
        (session.refuse crypto phone key nonce).1 := by
  unfold EnrollSession.refuse
  by_cases hKnown : phone ∈ session.refused
  · rw [if_pos hKnown]
    exact ⟨h.of_none hNone rfl rfl h.distinct h.tracked h.answers, rfl, fun other => .inl,
      hNone, List.prefix_rfl, rfl⟩
  · rw [if_neg hKnown]
    have hDistinct : (session.refused ++ [phone]).Nodup := by
      rw [List.nodup_append]
      refine ⟨h.distinct, List.nodup_singleton phone, ?_⟩
      intro a ha b hb
      rw [List.mem_singleton.mp hb]
      rintro rfl
      exact hKnown ha
    have hAnswers := h.answers
    have hMost : maxRefusedAnswers < maxRefusedTracked := by decide
    by_cases hFew : session.refusedAnswers < maxRefusedAnswers
    · have hRoom : session.refused.length < maxRefusedTracked := by omega
      simp only [if_pos hFew, if_pos hRoom]
      refine ⟨h.of_none hNone rfl rfl hDistinct ?_ ?_, trivial, ?_, ?_⟩
      · simp only [List.length_append, List.length_singleton]
        omega
      · simp only [List.length_append, List.length_singleton]
        omega
      · intro other hOther
        exact (List.mem_append.mp hOther).imp_right List.mem_singleton.mp
      · cases hSealed : EnrollSession.sealed crypto key phone .refused nonce with
        | error e => exact ⟨List.prefix_append _ _, Nat.le_succ _, .inl hNone⟩
        | ok reply => exact ⟨phone, key, nonce, hNone, hKey, hSealed, hKnown, rfl, rfl⟩
    · simp only [if_neg hFew]
      by_cases hRoom : session.refused.length < maxRefusedTracked
      · simp only [if_pos hRoom]
        refine ⟨h.of_none hNone rfl rfl hDistinct ?_ ?_, trivial, ?_, hNone,
          List.prefix_append _ _, rfl⟩
        · simp only [List.length_append, List.length_singleton]
          omega
        · simp only [List.length_append, List.length_singleton]
          omega
        · intro other hOther
          exact (List.mem_append.mp hOther).imp_right List.mem_singleton.mp
      · simp only [if_neg hRoom]
        exact ⟨h.of_none hNone rfl rfl h.distinct h.tracked h.answers, trivial, fun other => .inl,
          hNone, List.prefix_rfl, rfl⟩

/-- A message of the owner: a certificate is entered and its result sealed for the owner. -/
theorem ownMessage_spec {opened : EnrollSession Key} {owner : Owner Key} {plaintext : List UInt8}
    (h : Counted crypto sink store₀ handled opened store)
    (hFirst : firstPhone crypto (handled ++ [envelope]) = some owner)
    (hMessage : messageFrom crypto owner envelope = crypto.readUp plaintext)
    (hOpen : session.openEnvelope crypto envelope = (.ok (.owner plaintext), opened))
    (hRefused : opened.refused = session.refused)
    (hAnswers : opened.refusedAnswers = session.refusedAnswers) :
    Counted crypto sink store₀ (handled ++ [envelope])
        (session.handle crypto sink store envelope nonce).2.1
        (session.handle crypto sink store envelope nonce).2.2 ∧
      (session.handle crypto sink store envelope nonce).2.1.owner = opened.owner ∧
      (session.handle crypto sink store envelope nonce).2.1.refused = session.refused ∧
      Answered crypto sink handled session (session.handle crypto sink store envelope nonce).2.1
        store envelope (session.handle crypto sink store envelope nonce).1 := by
  have hNew := @ownCertificates_concat _ crypto handled envelope
  rw [hFirst, Option.bind_some] at hNew
  have hPlain (hNone : certificateFrom crypto owner envelope = none) :
      ownCertificates crypto (handled ++ [envelope]) = ownCertificates crypto handled := by
    rw [hNew, hNone, Option.toList_none, List.append_nil]
  have hQuiet (hNone : certificateFrom crypto owner envelope = none) :
      Counted crypto sink store₀ (handled ++ [envelope]) opened store :=
    h.of_none (hPlain hNone) rfl rfl h.distinct h.tracked h.answers
  have hSame : session.refused <+: opened.refused := by rw [hRefused]
  unfold EnrollSession.handle
  rw [hOpen]
  cases hRead : crypto.readUp plaintext with
  | none =>
      have hNone : certificateFrom crypto owner envelope = none := by
        rw [certificateFrom, hMessage, hRead]
      simp only [hRead]
      exact ⟨hQuiet hNone, trivial, hRefused, hPlain hNone, hSame, hAnswers⟩
  | some message =>
      cases message with
      | hello =>
          have hNone : certificateFrom crypto owner envelope = none := by
            rw [certificateFrom, hMessage, hRead]
          simp only [hRead]
          exact ⟨hQuiet hNone, trivial, hRefused, hPlain hNone, hSame, hAnswers⟩
      | done =>
          have hNone : certificateFrom crypto owner envelope = none := by
            rw [certificateFrom, hMessage, hRead]
          simp only [hRead]
          exact ⟨hQuiet hNone, trivial, hRefused, hPlain hNone, hSame, hAnswers⟩
      | certificate id text =>
          have hOne : ownCertificates crypto (handled ++ [envelope]) =
              ownCertificates crypto handled ++ [(id, text)] := by
            rw [hNew, certificateFrom, hMessage, hRead]
            rfl
          simp only [hRead]
          refine ⟨h.certificate hOne, trivial, hRefused, ?_⟩
          cases hSeal : EnrollSession.sealOwner crypto _ (.result id (sink store text).1.told)
              nonce with
          | error e => exact ⟨hSame, hAnswers.ge, .inr ⟨_, hOne⟩⟩
          | ok reply => exact ⟨id, text, nonce, hOne, rfl, hSeal, hRefused, hAnswers⟩

theorem certificateFrom_none {owner : Owner Key}
    (h : messageFrom crypto owner envelope = none) :
    certificateFrom crypto owner envelope = none := by
  rw [certificateFrom, h]

theorem Tally.keyed (h : Tally crypto sink store₀ handled session store) : session.Keyed crypto :=
  fun _ hOwner => firstPhone_keyed (h.owner.symm.trans hOwner)

theorem Tally.firstPhone_concat (h : Tally crypto sink store₀ handled session store) :
    firstPhone crypto (handled ++ [envelope]) =
      session.owner.or ((opens crypto envelope).map Prod.fst) := by
  rw [h.owner]
  exact Service.firstPhone_concat handled envelope

/-- The tally after an envelope, and the answer to it. -/
def TallyKept (crypto : EnrollCrypto Key) (sink : CertificateSink Store) (store₀ : Store)
    (handled : List Envelope) (session : EnrollSession Key) (store : Store) (envelope : Envelope)
    (nonce : Except String (List UInt8)) : Prop :=
  Tally crypto sink store₀ (handled ++ [envelope])
      (session.handle crypto sink store envelope nonce).2.1
      (session.handle crypto sink store envelope nonce).2.2 ∧
    Answered crypto sink handled session (session.handle crypto sink store envelope nonce).2.1
      store envelope (session.handle crypto sink store envelope nonce).1

/-- An envelope that no phone's key opens is ignored. -/
theorem handle_unopened (h : Tally crypto sink store₀ handled session store)
    (hOpens : opens crypto envelope = none) :
    TallyKept crypto sink store₀ handled session store envelope nonce := by
  have hSpec := openEnvelope_spec h.keyed envelope
  have hFirst := @Tally.firstPhone_concat _ _ _ _ _ envelope _ _ _ h
  have hNew := @ownCertificates_concat _ crypto handled envelope
  rw [hOpens] at hSpec
  rw [hOpens, Option.map_none, Option.or_none] at hFirst
  obtain ⟨⟨reason, hError⟩, hSession⟩ := hSpec
  have hOpen : session.openEnvelope crypto envelope = (.error reason, session) :=
    Prod.ext hError hSession
  have hHandle : session.handle crypto sink store envelope nonce =
      (.ok (.ignored reason), session, store) := by
    rw [EnrollSession.handle, hOpen]
  have hNone : ownCertificates crypto (handled ++ [envelope]) = ownCertificates crypto handled := by
    have hOwn (owner : Owner Key) : certificateFrom crypto owner envelope = none := by
      apply certificateFrom_none
      rw [messageFrom, hOpens, Option.bind_none]
    rw [hNew]
    cases firstPhone crypto (handled ++ [envelope]) with
    | none => exact List.append_nil _
    | some owner => rw [Option.bind_some, hOwn, Option.toList_none, List.append_nil]
  rw [TallyKept, hHandle]
  exact ⟨⟨h.toCounted.of_none hNone rfl rfl h.distinct h.tracked h.answers, hFirst.symm,
    h.others⟩, hNone, List.prefix_rfl, rfl⟩

variable {owner first : Owner Key} {plaintext : List UInt8}

/-- The first phone that is heard becomes the owner. -/
theorem handle_first (h : Tally crypto sink store₀ handled session store)
    (hOpens : opens crypto envelope = some (owner, plaintext)) (hOwner : session.owner = none) :
    TallyKept crypto sink store₀ handled session store envelope nonce := by
  have hSpec := openEnvelope_spec h.keyed envelope
  have hFirst := @Tally.firstPhone_concat _ _ _ _ _ envelope _ _ _ h
  rw [hOpens] at hSpec
  simp only at hSpec
  rw [hOwner] at hSpec
  rw [hOpens, hOwner, Option.map_some] at hFirst
  have hMessage : messageFrom crypto owner envelope = crypto.readUp plaintext := by
    rw [messageFrom, hOpens, Option.bind_some, if_pos rfl]
  have hCounted : Counted crypto sink store₀ handled { session with owner := some owner } store :=
    ⟨h.store, h.certificates, h.stored, h.distinct, h.tracked, h.answers⟩
  obtain ⟨hKept, hOwns, hRefused, hAnswered⟩ := @ownMessage_spec _ _ _ _ _ _ _ _ _ nonce _ _
    _ hCounted hFirst hMessage hSpec rfl rfl
  refine ⟨⟨hKept, hOwns.trans hFirst.symm, ?_⟩, hAnswered⟩
  intro phone hPhone
  obtain ⟨known, hKnown, -⟩ := h.others phone (hRefused ▸ hPhone)
  rw [hOwner] at hKnown
  cases hKnown

/-- The owner is heard again. -/
theorem handle_owner (h : Tally crypto sink store₀ handled session store)
    (hOpens : opens crypto envelope = some (owner, plaintext))
    (hOwner : session.owner = some first) (hSame : first.phone = owner.phone) :
    TallyKept crypto sink store₀ handled session store envelope nonce := by
  have hSpec := openEnvelope_spec h.keyed envelope
  have hFirst := @Tally.firstPhone_concat _ _ _ _ _ envelope _ _ _ h
  rw [hOpens] at hSpec
  simp only at hSpec
  rw [hOwner] at hSpec
  simp only at hSpec
  rw [if_pos hSame] at hSpec
  rw [hOpens, hOwner, Option.some_or] at hFirst
  have hMessage : messageFrom crypto first envelope = crypto.readUp plaintext := by
    rw [messageFrom, hOpens, Option.bind_some, if_pos hSame.symm]
  obtain ⟨hKept, hOwns, hRefused, hAnswered⟩ := @ownMessage_spec _ _ _ _ _ _ _ _ _ nonce _
    _ _ h.toCounted hFirst hMessage hSpec rfl rfl
  refine ⟨⟨hKept, hOwns.trans (hOwner.trans hFirst.symm), ?_⟩, hAnswered⟩
  intro phone hPhone
  rw [hOwns]
  exact h.others phone (hRefused ▸ hPhone)

/-- Another phone is refused. -/
theorem handle_other (h : Tally crypto sink store₀ handled session store)
    (hOpens : opens crypto envelope = some (owner, plaintext))
    (hOwner : session.owner = some first) (hDiffers : first.phone ≠ owner.phone) :
    TallyKept crypto sink store₀ handled session store envelope nonce := by
  have hSpec := openEnvelope_spec h.keyed envelope
  have hFirst := @Tally.firstPhone_concat _ _ _ _ _ envelope _ _ _ h
  have hNew := @ownCertificates_concat _ crypto handled envelope
  rw [hOpens] at hSpec
  simp only at hSpec
  rw [hOwner] at hSpec
  simp only at hSpec
  rw [if_neg hDiffers] at hSpec
  rw [hOpens, hOwner, Option.some_or] at hFirst
  have hNone : ownCertificates crypto (handled ++ [envelope]) = ownCertificates crypto handled := by
    have hOther : certificateFrom crypto first envelope = none := by
      apply certificateFrom_none
      rw [messageFrom, hOpens, Option.bind_some, if_neg (Ne.symm hDiffers)]
    rw [hNew, hFirst, Option.bind_some, hOther, Option.toList_none, List.append_nil]
  have hHandle : session.handle crypto sink store envelope nonce =
      ((session.refuse crypto owner.phone owner.key nonce).1,
        (session.refuse crypto owner.phone owner.key nonce).2, store) := by
    rw [EnrollSession.handle, hSpec]
  obtain ⟨hKept, hOwns, hRefused, hAnswered⟩ := @refuse_spec _ _ _ _ _ _ _ _ _ nonce
    h.toCounted hNone _ _ (opens_keyed hOpens)
  rw [TallyKept, hHandle]
  refine ⟨⟨hKept, hOwns.trans (hOwner.trans hFirst.symm), ?_⟩, hAnswered⟩
  intro phone hPhone
  refine ⟨first, hOwns.trans hOwner, ?_⟩
  cases hRefused phone hPhone with
  | inl hOld =>
      obtain ⟨known, hKnown, hOldDiffers⟩ := h.others phone hOld
      rw [hOwner] at hKnown
      cases hKnown
      exact hOldDiffers
  | inr hNewPhone =>
      rw [hNewPhone]
      exact hDiffers

/-- Handling an envelope keeps the tally. -/
theorem handle_tally (h : Tally crypto sink store₀ handled session store) (envelope : Envelope)
    (nonce : Except String (List UInt8)) :
    Tally crypto sink store₀ (handled ++ [envelope])
        (session.handle crypto sink store envelope nonce).2.1
        (session.handle crypto sink store envelope nonce).2.2 ∧
      Answered crypto sink handled session (session.handle crypto sink store envelope nonce).2.1
        store envelope (session.handle crypto sink store envelope nonce).1 := by
  cases hOpens : opens crypto envelope with
  | none => exact handle_unopened h hOpens
  | some found =>
      obtain ⟨owner, plaintext⟩ := found
      cases hOwner : session.owner with
      | none => exact handle_first h hOpens hOwner
      | some first =>
          by_cases hSame : first.phone = owner.phone
          · exact handle_owner h hOpens hOwner hSame
          · exact handle_other h hOpens hOwner hSame

/-- Whether an envelope keeps the session of its phone alive. -/
def speaks (crypto : EnrollCrypto Key) (owner : Option (Owner Key)) (envelope : Envelope) : Bool :=
  match owner.bind (messageFrom crypto · envelope) with
  | some .hello | some (.certificate _ _) => true
  | _ => false

def Handled.speaks : Handled → Bool
  | .hello | .certificate _ _ => true
  | _ => false

/-- When the first phone was last heard. -/
def heard (crypto : EnrollCrypto Key) (taken : List (Envelope × Nat)) : Option Nat :=
  (taken.reverse.find? fun took =>
    speaks crypto (firstPhone crypto (taken.map Prod.fst)) took.1).map Prod.snd

def LoopAction.taken : LoopAction → Option (Envelope × Nat)
  | .took envelope now => some (envelope, now)
  | _ => none

def LoopAction.result : LoopAction → Option Envelope
  | .resulted reply _ => some reply
  | _ => none

def LoopAction.refusal : LoopAction → Option Envelope
  | .refused reply _ => some reply
  | _ => none

/-- The envelopes a run has handled. -/
def handledOf (log : List LoopAction) : List Envelope :=
  (log.filterMap LoopAction.taken).map Prod.fst

/-- What the first phone is owed for its certificates. -/
def owed (crypto : EnrollCrypto Key) (sink : CertificateSink Store) (store₀ : Store)
    (handled : List Envelope) : List DownMessage :=
  (ownCertificates crypto handled).zipWith (fun certificate outcome =>
      .result certificate.1 outcome.told)
    (enterAll sink store₀ ((ownCertificates crypto handled).map Prod.snd)).1

/-- Every certificate of the first phone is answered in its order, to that phone; the last answer
can be missing in a loop that failed. -/
def Answers (crypto : EnrollCrypto Key) (sink : CertificateSink Store) (store₀ : Store)
    (log : List LoopAction) (session : EnrollSession Key) (phase : Phase) : Prop :=
  ∃ sent rest, owed crypto sink store₀ (handledOf log) = sent ++ rest ∧
    List.Forall₂ (fun reply message => ∃ nonce, session.sealOwner crypto message nonce = .ok reply)
      (log.filterMap LoopAction.result) sent ∧
    (rest = [] ∨ rest.length = 1 ∧ ∃ e, phase = .ended (.error e))

/-- Phones that are refused are told so once each, and few of them. -/
def Refusals (crypto : EnrollCrypto Key) (log : List LoopAction) (session : EnrollSession Key) :
    Prop :=
  ∃ phones, phones.Sublist session.refused ∧ phones.length ≤ session.refusedAnswers ∧
    List.Forall₂ (fun reply phone => ∃ key nonce, crypto.bussardKey phone = .ok key ∧
        EnrollSession.sealed crypto key phone .refused nonce = .ok reply)
      (log.filterMap LoopAction.refusal) phones

/-- A run of the loop up to some state: its session keeps the tally, every certificate of the first
phone was answered to that phone alone, and no other phone was told more than once that it is
refused. -/
structure Progress (crypto : EnrollCrypto Key) (sink : CertificateSink Store) (store₀ : Store)
    (log : List LoopAction) (loop : EnrollLoop Key Store) : Prop extends
    Tally crypto sink store₀ (handledOf log) loop.session loop.store where
  results : Answers crypto sink store₀ log loop.session loop.phase
  refusals : Refusals crypto log loop.session
  heard : (∀ e, loop.phase ≠ .ended (.error e)) →
    loop.lastSeen = heard crypto (log.filterMap LoopAction.taken)

variable {log : List LoopAction} {loop : EnrollLoop Key Store} {options : RunOptions}

theorem speaks_of_closed (h : opens crypto envelope = none) (owner : Option (Owner Key)) :
    speaks crypto owner envelope = false := by
  cases owner with
  | none => rfl
  | some owner => rw [speaks, Option.bind_some, messageFrom, h, Option.bind_none]

/-- The phone was heard last when it last spoke. -/
theorem heard_concat (taken : List (Envelope × Nat)) (envelope : Envelope) (now : Nat) :
    heard crypto (taken ++ [(envelope, now)]) =
      if speaks crypto (firstPhone crypto (taken.map Prod.fst ++ [envelope])) envelope then some now
      else heard crypto taken := by
  unfold heard
  rw [List.reverse_append, List.reverse_singleton, List.singleton_append, List.find?_cons,
    List.map_append, List.map_singleton]
  cases hSpeaks : speaks crypto (firstPhone crypto (taken.map Prod.fst ++ [envelope])) envelope with
  | true => rfl
  | false =>
      simp only [Bool.false_eq_true, if_false]
      cases hFirst : firstPhone crypto (taken.map Prod.fst) with
      | some owner => rw [firstPhone_concat, hFirst, Option.some_or]
      | none =>
          have hQuiet (owner : Option (Owner Key)) :
              taken.reverse.find? (fun took => speaks crypto owner took.1) = none := by
            rw [List.find?_eq_none]
            intro took hTook
            rw [speaks_of_closed (opens_of_no_phone hFirst took.1
              (List.mem_map_of_mem (List.mem_reverse.mp hTook)))]
            exact Bool.false_ne_true
          rw [hQuiet, hQuiet]

theorem owed_concat {id : Nat} {text : String}
    (hOne : ownCertificates crypto (handled ++ [envelope]) =
      ownCertificates crypto handled ++ [(id, text)]) :
    owed crypto sink store₀ (handled ++ [envelope]) = owed crypto sink store₀ handled ++
      [.result id (sink (enterAll sink store₀
        ((ownCertificates crypto handled).map Prod.snd)).2 text).1.told] := by
  unfold owed
  rw [hOne, List.map_append, List.map_singleton, enterAll_concat, List.zipWith_append]
  · rfl
  · rw [length_enterAll, List.length_map]

/-- A handled message counts as speaking exactly when its envelope does. -/
theorem ownMessage_speaks {opened : EnrollSession Key} {owner : Owner Key} {plaintext : List UInt8}
    {what : Handled} (hMessage : messageFrom crypto owner envelope = crypto.readUp plaintext)
    (hOpen : session.openEnvelope crypto envelope = (.ok (.owner plaintext), opened))
    (hOk : (session.handle crypto sink store envelope nonce).1 = .ok what) :
    what.speaks = speaks crypto (some owner) envelope := by
  rw [speaks, Option.bind_some, hMessage]
  rw [EnrollSession.handle, hOpen] at hOk
  cases hRead : crypto.readUp plaintext with
  | none =>
      simp only [hRead] at hOk
      cases hOk
      rfl
  | some message =>
      cases message with
      | hello =>
          simp only [hRead] at hOk
          cases hOk
          rfl
      | done =>
          simp only [hRead] at hOk
          cases hOk
          rfl
      | certificate id text =>
          simp only [hRead] at hOk
          obtain ⟨reply, -, rfl⟩ := Fallible.map_eq_ok.mp hOk
          rfl

theorem refuse_quiet {phone : List UInt8} {key : Key} {what : Handled}
    (hOk : (session.refuse crypto phone key nonce).1 = .ok what) : what.speaks = false := by
  unfold EnrollSession.refuse at hOk
  by_cases hKnown : phone ∈ session.refused
  · rw [if_pos hKnown] at hOk
    cases hOk
    rfl
  · rw [if_neg hKnown] at hOk
    by_cases hFew : session.refusedAnswers < maxRefusedAnswers
    · simp only [if_pos hFew] at hOk
      obtain ⟨reply, -, rfl⟩ := Fallible.map_eq_ok.mp hOk
      rfl
    · simp only [if_neg hFew] at hOk
      cases hOk
      rfl

/-- A handled envelope keeps the session alive when it comes from the first phone. -/
theorem handle_speaks (h : Tally crypto sink store₀ handled session store) {what : Handled}
    (hOk : (session.handle crypto sink store envelope nonce).1 = .ok what) :
    what.speaks = speaks crypto (firstPhone crypto (handled ++ [envelope])) envelope := by
  have hKeyed : session.Keyed crypto := by
    intro owner hOwner
    exact firstPhone_keyed (h.owner.symm.trans hOwner)
  have hSpec := openEnvelope_spec hKeyed envelope
  rw [firstPhone_concat, ← h.owner]
  cases hOpens : opens crypto envelope with
  | none =>
      rw [hOpens] at hSpec
      obtain ⟨⟨reason, hError⟩, hSession⟩ := hSpec
      have hOpen : session.openEnvelope crypto envelope = (.error reason, session) :=
        Prod.ext hError hSession
      rw [EnrollSession.handle, hOpen] at hOk
      cases hOk
      rw [speaks_of_closed hOpens]
      rfl
  | some found =>
      obtain ⟨owner, plaintext⟩ := found
      rw [hOpens] at hSpec
      simp only at hSpec
      cases hOwner : session.owner with
      | none =>
          rw [hOwner] at hSpec
          have hMessage : messageFrom crypto owner envelope = crypto.readUp plaintext := by
            rw [messageFrom, hOpens, Option.bind_some, if_pos rfl]
          exact ownMessage_speaks hMessage hSpec hOk
      | some first =>
          rw [hOwner] at hSpec
          simp only at hSpec
          by_cases hSame : first.phone = owner.phone
          · rw [if_pos hSame] at hSpec
            have hMessage : messageFrom crypto first envelope = crypto.readUp plaintext := by
              rw [messageFrom, hOpens, Option.bind_some, if_pos hSame.symm]
            exact ownMessage_speaks hMessage hSpec hOk
          · rw [if_neg hSame] at hSpec
            rw [EnrollSession.handle, hSpec] at hOk
            have hOther : messageFrom crypto first envelope = none := by
              rw [messageFrom, hOpens, Option.bind_some, if_neg (Ne.symm hSame)]
            rw [refuse_quiet hOk, Option.some_or, speaks, Option.bind_some, hOther]

theorem sealOwner_of_owner {before after : EnrollSession Key} {message : DownMessage}
    {reply : Envelope} (hOwner : ∀ owner, before.owner = some owner → after.owner = some owner)
    (hSealed : before.sealOwner crypto message nonce = .ok reply) :
    after.sealOwner crypto message nonce = .ok reply := by
  cases hBefore : before.owner with
  | none =>
      rw [EnrollSession.sealOwner, hBefore] at hSealed
      cases hSealed
  | some owner =>
      rw [EnrollSession.sealOwner, hBefore] at hSealed
      rw [EnrollSession.sealOwner, hOwner owner hBefore]
      exact hSealed

theorem handledOf_append (log actions : List LoopAction) :
    handledOf (log ++ actions) = handledOf log ++ handledOf actions := by
  rw [handledOf, List.filterMap_append, List.map_append]
  rfl

section Answers

variable {actions : List LoopAction} {before after : EnrollSession Key} {phase next : Phase}

theorem Answers.settled (h : Answers crypto sink store₀ log session phase)
    (hRunning : ∀ outcome, phase ≠ .ended outcome) :
    List.Forall₂ (fun reply message => ∃ nonce, session.sealOwner crypto message nonce = .ok reply)
      (log.filterMap LoopAction.result) (owed crypto sink store₀ (handledOf log)) := by
  obtain ⟨sent, rest, hOwed, hSent, hRest⟩ := h
  have hEmpty : rest = [] := hRest.resolve_right fun ⟨_, e, hError⟩ => hRunning _ hError
  rw [hOwed, hEmpty, List.append_nil]
  exact hSent

/-- Nothing new is owed and nothing is answered. -/
theorem Answers.quiet (h : Answers crypto sink store₀ log before phase)
    (hRunning : ∀ outcome, phase ≠ .ended outcome)
    (hOwner : ∀ owner, before.owner = some owner → after.owner = some owner)
    (hOwed : owed crypto sink store₀ (handledOf (log ++ actions)) =
      owed crypto sink store₀ (handledOf log))
    (hNone : actions.filterMap LoopAction.result = []) :
    Answers crypto sink store₀ (log ++ actions) after next := by
  refine ⟨_, [], hOwed.trans (List.append_nil _).symm, ?_, .inl rfl⟩
  · rw [List.filterMap_append, hNone, List.append_nil]
    refine (h.settled hRunning).imp ?_
    intro reply message hSealed
    exact hSealed.imp fun nonce => sealOwner_of_owner hOwner

/-- A new answer that could not be sealed ends the loop. -/
theorem Answers.lost (h : Answers crypto sink store₀ log before phase)
    (hRunning : ∀ outcome, phase ≠ .ended outcome)
    (hOwner : ∀ owner, before.owner = some owner → after.owner = some owner)
    {message : DownMessage} (hOwed : owed crypto sink store₀ (handledOf (log ++ actions)) =
      owed crypto sink store₀ (handledOf log) ++ [message])
    (hNone : actions.filterMap LoopAction.result = []) (e : EnrollSessionError) :
    Answers crypto sink store₀ (log ++ actions) after (.ended (.error e)) := by
  refine ⟨_, [message], hOwed, ?_, .inr ⟨rfl, e, rfl⟩⟩
  rw [List.filterMap_append, hNone, List.append_nil]
  refine (h.settled hRunning).imp ?_
  intro reply message hSealed
  exact hSealed.imp fun nonce => sealOwner_of_owner hOwner

/-- A new answer follows the earlier ones. -/
theorem Answers.answered (h : Answers crypto sink store₀ log before phase)
    (hRunning : ∀ outcome, phase ≠ .ended outcome)
    (hOwner : ∀ owner, before.owner = some owner → after.owner = some owner)
    {message : DownMessage} (hOwed : owed crypto sink store₀ (handledOf (log ++ actions)) =
      owed crypto sink store₀ (handledOf log) ++ [message])
    {reply : Envelope} (hSealed : after.sealOwner crypto message nonce = .ok reply)
    (hOne : actions.filterMap LoopAction.result = [reply]) :
    Answers crypto sink store₀ (log ++ actions) after next := by
  refine ⟨_, [], hOwed.trans (List.append_nil _).symm, ?_, .inl rfl⟩
  · rw [List.filterMap_append, hOne]
    refine List.rel_append ((h.settled hRunning).imp ?_) (.cons ⟨nonce, hSealed⟩ .nil)
    intro reply message hSealed
    exact hSealed.imp fun nonce => sealOwner_of_owner hOwner

theorem Refusals.quiet (h : Refusals crypto log before)
    (hRefused : before.refused <+: after.refused)
    (hAnswers : before.refusedAnswers ≤ after.refusedAnswers)
    (hNone : actions.filterMap LoopAction.refusal = []) :
    Refusals crypto (log ++ actions) after := by
  obtain ⟨phones, hPhones, hFew, hSealed⟩ := h
  refine ⟨phones, hPhones.trans hRefused.sublist, hFew.trans hAnswers, ?_⟩
  rw [List.filterMap_append, hNone, List.append_nil]
  exact hSealed

/-- A phone that is refused for the first time is told so. -/
theorem Refusals.answered (h : Refusals crypto log before) {phone : List UInt8} {key : Key}
    {reply : Envelope} (hKey : crypto.bussardKey phone = .ok key)
    (hSealed : EnrollSession.sealed crypto key phone .refused nonce = .ok reply)
    (hRefused : after.refused = before.refused ++ [phone])
    (hAnswers : after.refusedAnswers = before.refusedAnswers + 1)
    (hOne : actions.filterMap LoopAction.refusal = [reply]) :
    Refusals crypto (log ++ actions) after := by
  obtain ⟨phones, hPhones, hFew, hEarlier⟩ := h
  refine ⟨phones ++ [phone], ?_, ?_, ?_⟩
  · rw [hRefused]
    exact hPhones.append (List.Sublist.refl _)
  · rw [hAnswers, List.length_append]
    exact Nat.succ_le_succ hFew
  · rw [List.filterMap_append, hOne]
    exact List.rel_append hEarlier (.cons ⟨key, nonce, hKey, hSealed⟩ .nil)

end Answers

/-- Actions that handle nothing and answer nothing keep the progress of a loop that goes on. -/
theorem Progress.quiet (h : Progress crypto sink store₀ log loop) {actions : List LoopAction}
    {phase : Phase} {cursor : Nat} (hRunning : ∀ outcome, loop.phase ≠ .ended outcome)
    (hTaken : actions.filterMap LoopAction.taken = [])
    (hResult : actions.filterMap LoopAction.result = [])
    (hRefusal : actions.filterMap LoopAction.refusal = []) :
    Progress crypto sink store₀ (log ++ actions) { loop with phase, cursor } := by
  have hSame : handledOf (log ++ actions) = handledOf log := by
    rw [handledOf_append, handledOf, handledOf, hTaken]
    exact List.append_nil _
  refine ⟨⟨?_, ?_, h.others⟩, ?_, ?_, ?_⟩
  · rw [hSame]
    exact h.toCounted
  · rw [hSame]
    exact h.owner
  · exact h.results.quiet hRunning (fun _ => id) (by rw [hSame]) hResult
  · exact h.refusals.quiet List.prefix_rfl (Nat.le_refl _) hRefusal
  · intro _
    rw [List.filterMap_append, hTaken, List.append_nil]
    exact h.heard fun e => hRunning _

theorem pollTurn_progress (h : Progress crypto sink store₀ log loop)
    (hRunning : ∀ outcome, loop.phase ≠ .ended outcome) (stop : Bool) (now : Nat)
    (answer : Except RelayError RelayPoll) :
    Progress crypto sink store₀ (log ++ (loop.pollTurn options stop now answer).2)
      (loop.pollTurn options stop now answer).1 := by
  unfold EnrollLoop.pollTurn
  cases stop with
  | true => exact h.quiet hRunning rfl rfl rfl
  | false =>
      simp only [Bool.false_eq_true, if_false]
      split
      · exact h.quiet hRunning rfl rfl rfl
      · exact h.quiet hRunning rfl rfl rfl

theorem handledOf_took {now : Nat} {actions : List LoopAction}
    (hTaken : actions.filterMap LoopAction.taken = [(envelope, now)]) :
    handledOf (log ++ actions) = handledOf log ++ [envelope] := by
  have hNew : handledOf actions = [envelope] := by
    rw [handledOf, hTaken]
    rfl
  rw [handledOf_append, hNew]

/-- What the loop does with a handled envelope. -/
theorem handled_progress (h : Progress crypto sink store₀ log loop)
    (hRunning : ∀ outcome, loop.phase ≠ .ended outcome) {now : Nat}
    {loop' : EnrollLoop Key Store} {actions : List LoopAction}
    (hTally : Tally crypto sink store₀ (handledOf log ++ [envelope]) loop'.session loop'.store)
    (hTaken : actions.filterMap LoopAction.taken = [(envelope, now)])
    (hAnswers : Answers crypto sink store₀ (log ++ actions) loop'.session loop'.phase)
    (hRefusals : Refusals crypto (log ++ actions) loop'.session)
    (hSeen : (∀ e, loop'.phase ≠ .ended (.error e)) → loop'.lastSeen =
      if speaks crypto (firstPhone crypto (handledOf log ++ [envelope])) envelope then some now
      else loop.lastSeen) :
    Progress crypto sink store₀ (log ++ actions) loop' := by
  have hHandled := @handledOf_took envelope log now actions hTaken
  refine ⟨⟨?_, ?_, hTally.others⟩, hAnswers, hRefusals, ?_⟩
  · rw [hHandled]
    exact hTally.toCounted
  · rw [hHandled]
    exact hTally.owner
  · intro hFine
    rw [hSeen hFine, List.filterMap_append, hTaken, heard_concat, h.heard fun e => hRunning _]
    rfl

/-- A handled envelope that nothing is answered to. -/
theorem unanswered_progress (h : Progress crypto sink store₀ log loop)
    (hRunning : ∀ outcome, loop.phase ≠ .ended outcome) {now : Nat}
    {loop' : EnrollLoop Key Store} {actions : List LoopAction}
    (hTally : Tally crypto sink store₀ (handledOf log ++ [envelope]) loop'.session loop'.store)
    (hOwner : ∀ owner, loop.session.owner = some owner → loop'.session.owner = some owner)
    (hNone : ownCertificates crypto (handledOf log ++ [envelope]) =
      ownCertificates crypto (handledOf log))
    (hRefused : loop.session.refused <+: loop'.session.refused)
    (hCount : loop.session.refusedAnswers ≤ loop'.session.refusedAnswers)
    (hTaken : actions.filterMap LoopAction.taken = [(envelope, now)])
    (hResult : actions.filterMap LoopAction.result = [])
    (hRefusal : actions.filterMap LoopAction.refusal = [])
    (hSeen : (∀ e, loop'.phase ≠ .ended (.error e)) → loop'.lastSeen =
      if speaks crypto (firstPhone crypto (handledOf log ++ [envelope])) envelope then some now
      else loop.lastSeen) :
    Progress crypto sink store₀ (log ++ actions) loop' := by
  refine handled_progress h hRunning hTally hTaken ?_
    (h.refusals.quiet hRefused hCount hRefusal) hSeen
  refine h.results.quiet hRunning hOwner ?_ hResult
  rw [handledOf_took hTaken, owed, hNone]
  rfl

/-- The actions of a handled envelope: it was taken, and whatever was told. -/
theorem taken_told (envelope : Envelope) (now : Nat) (events : List EnrollEvent)
    (actions : List LoopAction) (hNone : actions.filterMap LoopAction.taken = []) :
    (LoopAction.took envelope now :: events.map .told ++ actions).filterMap LoopAction.taken =
      [(envelope, now)] := by
  induction events with
  | nil => exact congrArg _ hNone
  | cons event events ih => exact ih

theorem result_told (envelope : Envelope) (now : Nat) (events : List EnrollEvent)
    (actions : List LoopAction) :
    (LoopAction.took envelope now :: events.map .told ++ actions).filterMap LoopAction.result =
      actions.filterMap LoopAction.result := by
  induction events with
  | nil => rfl
  | cons event events ih => exact ih

theorem refusal_told (envelope : Envelope) (now : Nat) (events : List EnrollEvent)
    (actions : List LoopAction) :
    (LoopAction.took envelope now :: events.map .told ++ actions).filterMap LoopAction.refusal =
      actions.filterMap LoopAction.refusal := by
  induction events with
  | nil => rfl
  | cons event events ih => exact ih

/-- A turn takes one message: it is handled, answered, or ends the session. -/
theorem messageTurn_progress (h : Progress crypto sink store₀ log loop)
    (hRunning : ∀ outcome, loop.phase ≠ .ended outcome) (message : RelayMessage)
    (rest : List RelayMessage) (closed : Bool) (now : Nat) (nonce : Except String (List UInt8))
    (posted : Except RelayError Nat) :
    Progress crypto sink store₀
      (log ++ (loop.messageTurn crypto sink message rest closed now nonce posted).2)
      (loop.messageTurn crypto sink message rest closed now nonce posted).1 := by
  unfold EnrollLoop.messageTurn
  cases hEnvelope : message.envelope with
  | none => exact h.quiet hRunning rfl rfl rfl
  | some envelope =>
      obtain ⟨hTally, hAnswered⟩ := handle_tally h.toTally envelope nonce
      have hSpeaks {what : Handled}
          (hOk : (loop.session.handle crypto sink loop.store envelope nonce).1 = .ok what) :=
        handle_speaks h.toTally hOk
      simp only
      generalize hHandle : loop.session.handle crypto sink loop.store envelope nonce = handled
        at hTally hAnswered
      obtain ⟨what, session, store⟩ := handled
      simp only at hTally hAnswered ⊢
      have hOwner : ∀ owner, loop.session.owner = some owner → session.owner = some owner := by
        intro owner hFirst
        rw [hTally.owner, firstPhone_concat, ← h.owner, hFirst, Option.some_or]
      obtain ⟨events, hJoined⟩ : ∃ events : List EnrollEvent,
          (if loop.session.owner.isNone && session.owner.isSome then [LoopAction.told .phoneJoined]
            else []) = events.map LoopAction.told := by
        split
        · exact ⟨[.phoneJoined], rfl⟩
        · exact ⟨[], rfl⟩
      rw [hJoined]
      cases what with
      | error e =>
          obtain ⟨hRefused, hCount, hOwned⟩ := hAnswered
          cases hOwned with
          | inl hNone =>
              exact unanswered_progress h hRunning hTally hOwner hNone hRefused hCount rfl rfl rfl
                fun hFine => absurd rfl (hFine e)
          | inr hOne =>
              obtain ⟨⟨id, text⟩, hOne⟩ := hOne
              refine handled_progress h hRunning hTally rfl ?_
                (h.refusals.quiet hRefused hCount rfl) fun hFine => absurd rfl (hFine e)
              exact h.results.lost hRunning hOwner
                ((congrArg _ (handledOf_took rfl)).trans (owed_concat hOne)) rfl e
      | ok what =>
          have hSeen := hSpeaks (congrArg Prod.fst hHandle)
          cases what with
          | hello =>
              obtain ⟨hNone, hRefused, hCount⟩ := hAnswered
              refine unanswered_progress h hRunning hTally hOwner hNone hRefused hCount.ge
                (taken_told _ _ _ _ rfl) (result_told _ _ _ _) (refusal_told _ _ _ _) ?_
              intro _
              rw [← hSeen]
              rfl
          | done =>
              obtain ⟨hNone, hRefused, hCount⟩ := hAnswered
              refine unanswered_progress h hRunning hTally hOwner hNone hRefused hCount.ge
                (taken_told _ _ _ _ rfl) (result_told _ _ _ _) (refusal_told _ _ _ _) ?_
              intro _
              rw [← hSeen]
              rfl
          | ignored reason =>
              obtain ⟨hNone, hRefused, hCount⟩ := hAnswered
              refine unanswered_progress h hRunning hTally hOwner hNone hRefused hCount.ge
                (taken_told _ _ _ _ rfl) (result_told _ _ _ _) (refusal_told _ _ _ _) ?_
              intro _
              rw [← hSeen]
              rfl
          | refused reply first =>
              cases reply with
              | none =>
                  obtain ⟨hNone, hRefused, hCount⟩ := hAnswered
                  refine unanswered_progress h hRunning hTally hOwner hNone hRefused hCount.ge
                    (taken_told _ _ _ _ ?_) ((result_told _ _ _ _).trans ?_)
                    ((refusal_told _ _ _ _).trans ?_) ?_
                  · cases first <;> rfl
                  · cases first <;> rfl
                  · cases first <;> rfl
                  · intro _
                    rw [← hSeen]
                    rfl
              | some reply =>
                  obtain ⟨phone, key, nonce, hNone, hKey, hSealed, -, hRefused, hCount⟩ := hAnswered
                  refine handled_progress h hRunning hTally (taken_told _ _ _ _ ?_)
                    (h.results.quiet hRunning hOwner ?_ ((result_told _ _ _ _).trans ?_))
                    (h.refusals.answered hKey hSealed hRefused hCount
                      ((refusal_told _ _ _ _).trans ?_)) ?_
                  · cases first <;> rfl
                  · rw [handledOf_took (taken_told _ _ _ _ (by cases first <;> rfl)), owed, hNone]
                    rfl
                  · cases first <;> rfl
                  · cases first <;> rfl
                  · intro _
                    rw [← hSeen]
                    rfl
          | certificate reply outcome =>
              obtain ⟨id, text, nonce, hOne, hOutcome, hSealed, hRefused, hCount⟩ := hAnswered
              have hOwed : owed crypto sink store₀ (handledOf log ++ [envelope]) =
                  owed crypto sink store₀ (handledOf log) ++ [.result id outcome.told] := by
                rw [owed_concat hOne, ← h.store, ← hOutcome]
              have hSame : loop.session.refused <+: session.refused := by rw [hRefused]
              cases posted with
              | ok seq =>
                  refine handled_progress h hRunning hTally (taken_told _ _ _ _ rfl)
                    (h.results.answered hRunning hOwner ?_ hSealed (result_told _ _ _ _))
                    (h.refusals.quiet hSame hCount.ge (refusal_told _ _ _ _)) ?_
                  · exact (congrArg _ (handledOf_took (taken_told _ _ _ _ rfl))).trans hOwed
                  · intro _
                    rw [← hSeen]
                    rfl
              | error e =>
                  refine handled_progress h hRunning hTally (taken_told _ _ _ _ rfl)
                    (h.results.answered hRunning hOwner ?_ hSealed (result_told _ _ _ _))
                    (h.refusals.quiet hSame hCount.ge (refusal_told _ _ _ _)) ?_
                  · exact (congrArg _ (handledOf_took (taken_told _ _ _ _ rfl))).trans hOwed
                  · intro hFine
                    exact absurd rfl (hFine _)

/-- Every turn keeps the account. -/
theorem step_progress (h : Progress crypto sink store₀ log loop) (input : LoopInput) :
    Progress crypto sink store₀ (log ++ (loop.step crypto sink options input).2)
      (loop.step crypto sink options input).1 := by
  have hIdle : Progress crypto sink store₀ (log ++ []) loop := by
    rw [List.append_nil]
    exact h
  have hRunning {phase : Phase} (hPhase : loop.phase = phase)
      (hGoes : ∀ outcome, phase ≠ .ended outcome) : ∀ outcome, loop.phase ≠ .ended outcome := by
    rw [hPhase]
    exact hGoes
  cases input with
  | poll stop now answer =>
      cases hPhase : loop.phase with
      | polling =>
          simp only [EnrollLoop.step, hPhase]
          exact pollTurn_progress h (hRunning hPhase fun _ => Phase.noConfusion) stop now answer
      | handling messages closed =>
          simp only [EnrollLoop.step, hPhase]
          exact hIdle
      | ended outcome =>
          simp only [EnrollLoop.step, hPhase]
          exact hIdle
  | message now nonce posted =>
      cases hPhase : loop.phase with
      | polling =>
          simp only [EnrollLoop.step, hPhase]
          exact hIdle
      | ended outcome =>
          simp only [EnrollLoop.step, hPhase]
          exact hIdle
      | handling messages closed =>
          cases messages with
          | nil =>
              simp only [EnrollLoop.step, hPhase]
              exact hIdle
          | cons message rest =>
              simp only [EnrollLoop.step, hPhase]
              exact messageTurn_progress h (hRunning hPhase fun _ => Phase.noConfusion) message rest
                closed now nonce posted

/-- A session belongs to one phone. Whatever the relay delivers, in whatever order and however
often, the first phone whose message opens owns the session: the certificates entered are the ones
it sent, each answered once, in order and to it alone, while every other phone is told at most once
that it is refused, and at most sixteen are told. -/
theorem one_phone (options : RunOptions) (store₀ : Store) (started : Nat)
    (inputs : List LoopInput) : Progress crypto sink store₀
      (Run.outputs (EnrollLoop.step crypto sink options) { store := store₀, started } inputs)
      (Run.after (EnrollLoop.step crypto sink options) { store := store₀, started } inputs) := by
  have hStep : ∀ log loop input, Progress crypto sink store₀ log loop → True →
      Progress crypto sink store₀ (log ++ (loop.step crypto sink options input).2)
        (loop.step crypto sink options input).1 := fun _ _ input h _ => step_progress h input
  have hStart : Progress crypto sink store₀ [] { store := store₀, started } :=
    ⟨⟨⟨rfl, rfl, rfl, List.nodup_nil, Nat.zero_le _, rfl⟩, rfl, by simp⟩,
      ⟨[], [], rfl, .nil, .inl rfl⟩, ⟨[], .slnil, Nat.le_refl _, .nil⟩, fun _ => rfl⟩
  exact Run.history_invariant _ _ hStep hStart (Run.along_of_forall (fun _ _ => trivial) _ _)

theorem react_started (now : Nat) (posted : Except RelayError Nat) (what : Handled) :
    (loop.react now posted what).1.started = loop.started := by
  cases what with
  | certificate reply outcome => cases posted <;> rfl
  | hello => rfl
  | done => rfl
  | refused reply first => rfl
  | ignored reason => rfl

/-- The time of the start stays. -/
theorem step_started (loop : EnrollLoop Key Store) (input : LoopInput) :
    (loop.step crypto sink options input).1.started = loop.started := by
  cases input with
  | poll stop now answer =>
      unfold EnrollLoop.step EnrollLoop.pollTurn
      cases loop.phase with
      | polling =>
          cases stop with
          | true => rfl
          | false =>
              simp only [Bool.false_eq_true, if_false]
              split <;> rfl
      | handling messages closed => rfl
      | ended outcome => rfl
  | message now nonce posted =>
      unfold EnrollLoop.step EnrollLoop.messageTurn
      cases loop.phase with
      | polling => rfl
      | ended outcome => rfl
      | handling messages closed =>
          cases messages with
          | nil => rfl
          | cons message rest =>
              simp only
              cases message.envelope with
              | none => rfl
              | some envelope =>
                  simp only
                  cases (loop.session.handle crypto sink loop.store envelope nonce).1 with
                  | error e => rfl
                  | ok what => exact react_started now posted what

/-- The time by which the next message of the first phone has to be there. -/
def due (options : RunOptions) (started : Nat) (heard : Option Nat) : Nat :=
  min (heard.elim (started + options.timeouts.connect) (· + options.timeouts.idle))
    (started + options.timeouts.max)

theorem deadline_due (options : RunOptions) (started : Nat) (seen : Option Nat) :
    (deadline started seen options.timeouts).1 = due options started seen := by
  unfold deadline due
  cases seen with
  | none =>
      simp only [Option.elim_none]
      split <;> omega
  | some seen =>
      simp only [Option.elim_some]
      split <;> omega

/-- Only the first phone keeps a session open: bussard polls while it was heard within the idle
time, never past the longest session, and waits at most to the end of the second in which time is
up. -/
theorem polls_in_time (options : RunOptions) (store₀ : Store) (started : Nat)
    (inputs : List LoopInput) {stop : Bool} {now : Nat} {answer : Except RelayError RelayPoll}
    {cursor wait : Nat}
    (hPolled : LoopAction.polled cursor wait ∈ (EnrollLoop.step crypto sink options
      (Run.after (EnrollLoop.step crypto sink options) { store := store₀, started } inputs)
      (.poll stop now answer)).2) :
    stop = false ∧ wait ≤ min options.waitSecs maxWaitSecs ∧
      now < due options started (heard crypto ((Run.outputs (EnrollLoop.step crypto sink options)
        { store := store₀, started } inputs).filterMap LoopAction.taken)) ∧
      now + wait * 1000000000 < due options started
        (heard crypto ((Run.outputs (EnrollLoop.step crypto sink options)
          { store := store₀, started } inputs).filterMap LoopAction.taken)) + 1000000000 := by
  have hProgress := @one_phone _ _ crypto sink options store₀ started inputs
  have hStarted : (Run.after (EnrollLoop.step crypto sink options) { store := store₀, started }
      inputs).started = started := by
    have hKept : ∀ (loop : EnrollLoop Key Store) (input : LoopInput), loop.started = started →
        True → (loop.step crypto sink options input).1.started = started :=
      fun loop input h _ => (step_started loop input).trans h
    exact Run.after_invariant hKept rfl (Run.along_of_forall (fun _ _ => trivial) _ _)
  generalize Run.after (EnrollLoop.step crypto sink options) { store := store₀, started }
    inputs = loop at hPolled hProgress hStarted
  generalize Run.outputs (EnrollLoop.step crypto sink options) { store := store₀, started }
    inputs = log at hProgress
  cases hPhase : loop.phase with
  | handling messages closed =>
      simp only [EnrollLoop.step, hPhase] at hPolled
      cases hPolled
  | ended outcome =>
      simp only [EnrollLoop.step, hPhase] at hPolled
      cases hPolled
  | polling =>
      simp only [EnrollLoop.step, hPhase, EnrollLoop.pollTurn] at hPolled
      have hSeen := hProgress.heard fun e => by
        rw [hPhase]
        exact Phase.noConfusion
      have hDue := deadline_due options loop.started loop.lastSeen
      rw [hSeen, hStarted] at hDue
      rw [hSeen, hStarted] at hPolled
      cases stop with
      | true => cases hPolled
      | false =>
          simp only [Bool.false_eq_true, if_false, hDue] at hPolled
          by_cases hLate : due options started (heard crypto (log.filterMap LoopAction.taken)) ≤ now
          · rw [if_pos hLate] at hPolled
            cases hPolled
          · rw [if_neg hLate] at hPolled
            cases List.mem_singleton.mp hPolled
            refine ⟨rfl, Nat.min_le_left _ _, Nat.not_le.mp hLate, ?_⟩
            generalize due options started (heard crypto (log.filterMap LoopAction.taken)) = last
              at hLate
            omega

end Session

/-- A stand-in for the ciphers of one session, with two phones that say hello. -/
def clearCrypto : EnrollCrypto (List UInt8) where
  encode _ := "a"
  decode text :=
    if text = "p" then some (List.replicate 32 1) else if text = "q" then some (List.replicate 32 2)
    else if text = "n" then some (List.replicate 12 0) else if text = "h" then some [0] else none
  bussardKey phone := .ok phone
  openUp _ _ ciphertext := .ok ciphertext
  sealDown _ _ plaintext := .ok plaintext
  readUp plaintext := if plaintext = [0] then some .hello else none
  encodeDown _ := []

def clearSink : CertificateSink Unit := fun store _ => (⟨.stored, none, none, none, none⟩, store)

/-- One phone says hello after two seconds, and another one later. -/
def twoPhones : List LoopInput :=
  [.poll false 1000000000 (.ok
    ⟨[⟨1, some ⟨2, "p", "n", "h"⟩⟩, ⟨2, some ⟨2, "q", "n", "h"⟩⟩], false⟩),
    .message 2000000000 (.ok []) (.ok 1), .message 500000000000 (.ok []) (.ok 2)]

theorem polls_in_time_heard :
    900000000000 < due {} 0 (heard clearCrypto ((Run.outputs
      (EnrollLoop.step clearCrypto clearSink {}) { store := (), started := 0 }
      twoPhones).filterMap LoopAction.taken)) := by
  have hPolled : (EnrollLoop.step clearCrypto clearSink {} (Run.after
      (EnrollLoop.step clearCrypto clearSink {}) { store := (), started := 0 } twoPhones)
      (.poll false 900000000000 (.error .notFound))).2 = [.polled 2 2] := rfl
  exact (polls_in_time {} () 0 twoPhones (hPolled ▸ List.mem_singleton_self _)).2.2.1

end Bussard.Service
