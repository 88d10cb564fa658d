/-
# `Mailer` — one message handed to an SMTP server

`app/mailer.py`, and of `smtplib` what `sendmail` makes of the answers of a server.  What the
server does with a message is an input: the session may raise at any point, or each recipient is
accepted or refused, one after the other.  `SmtpMailer.send` turns that into a `MailSendResult`,
which is all the executor sees; `acceptsSome` and `acceptsAll` say what really happened to the
message, so that the two can be compared.

`sendmail` keeps the refused recipients by their address.  So an address that stands twice among
the recipients counts as refused when one of its places is, and the answer of `send` is about
`acceptsThroughout`: whether an address is accepted wherever it stands.

The contract at the end is all later modules use: `send_raises`, `send_acceptsAll` and
`send_acceptsThroughout` say what an answer tells of the recipients.  The text of the MIME message
is not modelled.
-/
import EarlyWarning.Models

namespace EarlyWarning

def SMTP_SEND_FAILURE : String := "SMTP 发送失败，请检查服务器、端口、加密方式和账号配置"

def SMTP_PARTIAL_FAILURE : String := "SMTP 部分收件人被拒收，请检查邮箱地址及服务器策略"

structure EmailMessage where
  recipients : List String
  ccRecipients : List String
  subject : String
  htmlBody : String
deriving DecidableEq

/-- `message.recipients + message.cc_recipients` -/
def EmailMessage.allRecipients (message : EmailMessage) : List String :=
  message.recipients ++ message.ccRecipients

structure MailSendResult where
  success : Bool
  errorMessage : String := ""
  partialSuccess : Bool := false
deriving DecidableEq

/-- What building and sending one message meets. -/
inductive SmtpOutcome
  /-- a header is rejected before there is a client -/
  | mimeRaises (exc : PyExc)
  /-- `client_factory` or `as_string` raises, or `sendmail` does, for another reason than that no
  recipient is accepted -/
  | sessionRaises (exc : PyExc)
  /-- the server accepts the recipients whose number `accepts` picks -/
  | answers (accepts : Nat → Bool)

/-- The recipients in the order they are given to the server, each with its answer. -/
def rcpt (accepts : Nat → Bool) (toAddrs : List String) : List (String × Bool) :=
  toAddrs.zipIdx.map fun x => (x.1, accepts x.2)

/-- `sendmail`: the keys of the map it returns, or `none` when it raises because no recipient is
accepted.  Where an address stands twice it finds that out when the server refuses the text. -/
def sendmail (answers : List (String × Bool)) : Option (List String) :=
  if answers.any Prod.snd then
    some ((answers.filter fun x => !x.2).map Prod.fst).eraseDups
  else
    none

/-- `SmtpMailer.send` -/
def SmtpMailer.send (outcome : SmtpOutcome) (message : EmailMessage) :
    Except PyExc MailSendResult :=
  match outcome with
  | .mimeRaises exc => .error exc
  | .sessionRaises exc =>
      if exc.isException then
        .ok { success := false, errorMessage := SMTP_SEND_FAILURE }
      else
        .error exc
  | .answers accepts =>
      match sendmail (rcpt accepts message.allRecipients) with
      | none => .ok { success := false, errorMessage := SMTP_SEND_FAILURE }
      | some refused =>
          if refused ≠ [] then
            let partialSuccess := message.allRecipients.any fun address => address ∉ refused
            .ok {
              success := false
              errorMessage := if partialSuccess then SMTP_PARTIAL_FAILURE else SMTP_SEND_FAILURE
              partialSuccess }
          else
            .ok { success := true }

/-- The mailers an executor may be given; the number counts the calls of one attempt. -/
inductive Mailer
  | smtp (outcome : Nat → EmailMessage → SmtpOutcome)
  /-- any other object with a `send` method -/
  | compatible (send : Nat → EmailMessage → Except PyExc MailSendResult)

def Mailer.send : Mailer → Nat → EmailMessage → Except PyExc MailSendResult
  | .smtp outcome, n, message => SmtpMailer.send (outcome n message) message
  | .compatible send, n, message => send n message

/-- The message was accepted for at least one recipient.  A server that raises has not
accepted it; of another mailer the result is believed. -/
def Mailer.acceptsSome (mailer : Mailer) (n : Nat) (message : EmailMessage) : Bool :=
  match mailer with
  | .smtp outcome =>
      match outcome n message with
      | .answers accepts => (rcpt accepts message.allRecipients).any Prod.snd
      | _ => false
  | .compatible send =>
      match send n message with
      | .ok result => result.success || result.partialSuccess
      | .error _ => false

/-- The message was accepted for every recipient. -/
def Mailer.acceptsAll (mailer : Mailer) (n : Nat) (message : EmailMessage) : Bool :=
  match mailer with
  | .smtp outcome =>
      match outcome n message with
      | .answers accepts => (rcpt accepts message.allRecipients).all Prod.snd
      | _ => false
  | .compatible send =>
      match send n message with
      | .ok result => result.success
      | .error _ => false

/-- An address is accepted wherever it stands. -/
def throughout (answers : List (String × Bool)) : Bool :=
  answers.any fun x => answers.all fun y => y.1 ≠ x.1 || y.2

/-- The message was accepted for an address wherever it stands among the recipients. -/
def Mailer.acceptsThroughout (mailer : Mailer) (n : Nat) (message : EmailMessage) : Bool :=
  match mailer with
  | .smtp outcome =>
      match outcome n message with
      | .answers accepts => throughout (rcpt accepts message.allRecipients)
      | _ => false
  | .compatible send =>
      match send n message with
      | .ok result => result.success || result.partialSuccess
      | .error _ => false

/-- A message handed to a mailer, and what became of it. -/
structure Delivery where
  message : EmailMessage
  /-- at least one recipient accepted it -/
  acceptedBySome : Bool
  /-- every recipient accepted it -/
  acceptedByAll : Bool
  /-- an address accepted it wherever it stands among the recipients -/
  acceptedThroughout : Bool
deriving DecidableEq

def Mailer.deliver (mailer : Mailer) (n : Nat) (message : EmailMessage) : Delivery :=
  { message, acceptedBySome := mailer.acceptsSome n message
    acceptedByAll := mailer.acceptsAll n message
    acceptedThroughout := mailer.acceptsThroughout n message }

/-! ## The answers of a server -/

section

variable {answers : List (String × Bool)} {accepts : Nat → Bool} {toAddrs refused : List String}
  {address : String}

theorem map_fst_rcpt (accepts : Nat → Bool) (toAddrs : List String) :
    (rcpt accepts toAddrs).map Prod.fst = toAddrs := by
  rw [rcpt, List.map_map]
  exact List.zipIdx_map_fst 0 toAddrs

theorem rcpt_ne_nil (h : toAddrs ≠ []) : rcpt accepts toAddrs ≠ [] := by
  intro hnil
  rw [← map_fst_rcpt accepts toAddrs, hnil] at h
  exact h rfl

theorem sendmail_eq_none : sendmail answers = none ↔ answers.any Prod.snd = false := by
  rw [sendmail]
  split
  case isTrue h => simp [h]
  case isFalse h => simpa using h

theorem mem_of_sendmail (h : sendmail answers = some refused) :
    address ∈ refused ↔ (address, false) ∈ answers := by
  rw [sendmail] at h
  split at h
  case isFalse => cases h
  case isTrue =>
    cases h
    rw [List.mem_eraseDups, List.mem_map]
    constructor
    · rintro ⟨x, hx, rfl⟩
      obtain ⟨hmem, hfalse⟩ := List.mem_filter.mp hx
      rw [Bool.not_eq_true'] at hfalse
      rwa [← hfalse]
    · intro hmem
      exact ⟨(address, false), List.mem_filter.mpr ⟨hmem, rfl⟩, rfl⟩

theorem sendmail_nil_iff (h : sendmail answers = some refused) :
    refused = [] ↔ answers.all Prod.snd = true := by
  rw [List.eq_nil_iff_forall_not_mem, List.all_eq_true]
  constructor
  · intro hnone x hx
    by_contra hrefused
    rw [Bool.not_eq_true] at hrefused
    exact hnone x.1 ((mem_of_sendmail h).mpr (hrefused ▸ hx))
  · intro hall address hmem
    cases hall _ ((mem_of_sendmail h).mp hmem)

theorem throughout_iff : throughout answers = true ↔
    ∃ address ∈ answers.map Prod.fst, (address, false) ∉ answers := by
  simp only [throughout, List.any_eq_true, List.all_eq_true, Bool.or_eq_true, decide_eq_true_eq]
  constructor
  · rintro ⟨x, hx, hall⟩
    refine ⟨x.1, List.mem_map_of_mem hx, fun hmem => ?_⟩
    rcases hall _ hmem with hne | hfalse
    · exact hne rfl
    · cases hfalse
  · rintro ⟨address, haddress, hnot⟩
    obtain ⟨x, hx, rfl⟩ := List.mem_map.mp haddress
    refine ⟨x, hx, fun y hy => ?_⟩
    by_contra hneither
    rw [not_or, not_not, Bool.not_eq_true] at hneither
    obtain ⟨hsame, hrefused⟩ := hneither
    exact hnot (hsame ▸ hrefused ▸ hy)

/-- An address that is accepted wherever it stands is accepted somewhere. -/
theorem any_of_throughout (h : throughout answers = true) : answers.any Prod.snd = true := by
  obtain ⟨address, haddress, hnot⟩ := throughout_iff.mp h
  obtain ⟨x, hx, rfl⟩ := List.mem_map.mp haddress
  refine List.any_eq_true.mpr ⟨x, hx, ?_⟩
  by_contra hrefused
  rw [Bool.not_eq_true] at hrefused
  exact hnot (hrefused ▸ hx)

theorem any_not_refused (h : sendmail (rcpt accepts toAddrs) = some refused) :
    (toAddrs.any fun address => address ∉ refused) = throughout (rcpt accepts toAddrs) := by
  rw [Bool.eq_iff_iff, throughout_iff, map_fst_rcpt]
  simp only [List.any_eq_true, decide_eq_true_eq, mem_of_sendmail h]

end

/-! ## The contract of a mailer -/

variable {mailer : Mailer} {n : Nat} {message : EmailMessage} {result : MailSendResult}

/-- A mailer that raises has accepted nothing. -/
theorem send_raises {exc : PyExc} (h : mailer.send n message = .error exc) :
    mailer.acceptsSome n message = false ∧ mailer.acceptsAll n message = false ∧
      mailer.acceptsThroughout n message = false := by
  cases mailer with
  | smtp outcome =>
      simp only [Mailer.send] at h
      cases ho : outcome n message with
      | mimeRaises e =>
          simp [Mailer.acceptsSome, Mailer.acceptsAll, Mailer.acceptsThroughout, ho]
      | sessionRaises e =>
          simp [Mailer.acceptsSome, Mailer.acceptsAll, Mailer.acceptsThroughout, ho]
      | answers accepts =>
          rw [ho] at h
          simp only [SmtpMailer.send] at h
          split at h
          case h_1 => cases h
          case h_2 => split at h <;> cases h
  | compatible send =>
      simp only [Mailer.send] at h
      simp [Mailer.acceptsSome, Mailer.acceptsAll, Mailer.acceptsThroughout, h]

/-- What is returned says which answers the server has given. -/
theorem send_answers {accepts : Nat → Bool} (hne : message.allRecipients ≠ [])
    (h : SmtpMailer.send (.answers accepts) message = .ok result) :
    (rcpt accepts message.allRecipients).all Prod.snd = result.success ∧
      throughout (rcpt accepts message.allRecipients) =
        (result.success || result.partialSuccess) := by
  simp only [SmtpMailer.send] at h
  split at h
  case h_1 hnone =>
    cases h
    have hrefused := sendmail_eq_none.mp hnone
    constructor
    · obtain ⟨x, hx⟩ := List.exists_mem_of_ne_nil (rcpt accepts _) (rcpt_ne_nil hne)
      exact List.all_eq_false.mpr ⟨x, hx, List.any_eq_false.mp hrefused x hx⟩
    · refine Bool.eq_false_iff.mpr fun hthroughout => ?_
      cases hrefused.symm.trans (any_of_throughout hthroughout)
  case h_2 refused hsome =>
    have hall := sendmail_nil_iff hsome
    split at h
    case isTrue hrefused =>
      cases h
      refine ⟨Bool.eq_false_iff.mpr (mt hall.mpr hrefused), ?_⟩
      rw [Bool.false_or]
      exact (any_not_refused hsome).symm
    case isFalse hrefused =>
      cases h
      have hnone := not_not.mp hrefused
      refine ⟨hall.mp hnone, ?_⟩
      obtain ⟨address, haddress⟩ := List.exists_mem_of_ne_nil _ hne
      rw [Bool.true_or, throughout_iff, map_fst_rcpt]
      refine ⟨address, haddress, fun hmem => ?_⟩
      have hin := (mem_of_sendmail hsome).mpr hmem
      rw [hnone] at hin
      cases hin

/-- A result says `success` exactly when every recipient accepted, and `success` or
`partial_success` exactly when an address is accepted wherever it stands. -/
theorem send_ok (hne : message.allRecipients ≠ [])
    (h : mailer.send n message = .ok result) :
    mailer.acceptsAll n message = result.success ∧
      mailer.acceptsThroughout n message = (result.success || result.partialSuccess) := by
  cases mailer with
  | smtp outcome =>
      simp only [Mailer.send] at h
      simp only [Mailer.acceptsAll, Mailer.acceptsThroughout]
      cases ho : outcome n message with
      | mimeRaises e =>
          rw [ho] at h
          cases h
      | sessionRaises e =>
          rw [ho] at h
          simp only [SmtpMailer.send] at h
          split at h
          · cases h
            exact ⟨rfl, rfl⟩
          · cases h
      | answers accepts =>
          rw [ho] at h
          exact send_answers hne h
  | compatible send =>
      simp only [Mailer.send] at h
      simp [Mailer.acceptsAll, Mailer.acceptsThroughout, h]

/-- A message that is accepted at every place of an address is accepted. -/
theorem acceptsSome_of_throughout (h : mailer.acceptsThroughout n message = true) :
    mailer.acceptsSome n message = true := by
  cases mailer with
  | smtp outcome =>
      cases ho : outcome n message with
      | mimeRaises e => simp [Mailer.acceptsThroughout, ho] at h
      | sessionRaises e => simp [Mailer.acceptsThroughout, ho] at h
      | answers accepts =>
          simp only [Mailer.acceptsThroughout, ho] at h
          simp only [Mailer.acceptsSome, ho]
          exact any_of_throughout h
  | compatible send => exact h

end EarlyWarning
