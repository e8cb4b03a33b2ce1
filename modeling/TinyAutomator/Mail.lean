import TinyAutomator.Lib.Base64
import TinyAutomator.Lib.Rfc5322

/-! The mail of a send_email node. Texts are the bytes of Go's strings. -/
namespace TinyAutomator.Mail

open Rfc5322 (Unbroken)

abbrev Bytes := List UInt8

def ascii (text : String) : Bytes := text.toList.map fun c => UInt8.ofNat c.toNat

structure EmailConfig where
  recipients : List Bytes
  subject : Bytes
  message : Bytes
  deriving DecidableEq

def crlf : Bytes := [13,10]

def encodeSimpleText (to_ sender subject body : Bytes) : Except Bytes Bytes :=
  if to_ = [] ∨ sender = [] ∨ subject = [] then .error (ascii "to, from, and subject are required")
  else
    let raw := ascii "To: " ++ to_ ++ crlf ++ ascii "From: " ++ sender ++ crlf ++
      ascii "Subject: " ++ subject ++ crlf ++ ascii "Content-Type: text/plain; charset=\"UTF-8\"" ++ crlf ++
      crlf ++ body
    .ok (Base64.encode raw)

/-- Execute, once Gmail has given the address of the user: the text that it sends. -/
def execute (email : Bytes) (c : EmailConfig) : Except Bytes Bytes :=
  match encodeSimpleText ((ascii ", ").intercalate c.recipients) email c.subject c.message with
  | .error err => .error (ascii "failed to encode email: " ++ err)
  | .ok encoded => .ok encoded

/-- `parseAddress` says whether mail.ParseAddress takes the text. -/
def validate (parseAddress : Bytes → Bool) (c : EmailConfig) : Except Bytes Unit :=
  if c.recipients.length = 0 then
    .error (ascii "recipients must be an array of at least one email address")
  else
    match c.recipients.find? (!parseAddress ·) with
    | some recipient => .error (ascii "invalid email address: " ++ recipient)
    | none =>
      if 256 < c.subject.length then .error (ascii "subject must be less than 256 characters")
      else if 10000 < c.message.length then .error (ascii "message must be less than 10000 characters")
      else .ok ()

def decoded (encoded : Bytes) : Option (List (Bytes × Bytes) × Bytes) :=
  match Base64.decode encoded with
  | some raw => Rfc5322.parse raw
  | none => none

/-- The header of the mail, and its values. -/
def header (to_ sender subject : Bytes) : List (Bytes × Bytes) :=
  [(ascii "To",to_),(ascii "From",sender),(ascii "Subject",subject),
    (ascii "Content-Type",ascii "text/plain; charset=\"UTF-8\"")]

section Encoding

variable {to_ sender subject body encoded : Bytes}

theorem header_valid : ∀ f ∈ header to_ sender subject, Rfc5322.ValidName f.1 := by
  simp only [header,List.forall_mem_cons]
  decide +kernel

theorem encodeSimpleText_render (ok : encodeSimpleText to_ sender subject body = .ok encoded) :
    encoded = Base64.encode (Rfc5322.render (header to_ sender subject) body) := by
  unfold encodeSimpleText at ok
  split at ok
  next => contradiction
  next =>
    have names : ascii "To: " = ascii "To" ++ [58,32] ∧ ascii "From: " = ascii "From" ++ [58,32] ∧
        ascii "Subject: " = ascii "Subject" ++ [58,32] ∧
        ascii "Content-Type: text/plain; charset=\"UTF-8\"" =
          ascii "Content-Type" ++ [58,32] ++ ascii "text/plain; charset=\"UTF-8\"" := by decide +kernel
    obtain ⟨to',from',subject',type'⟩ := names
    cases ok
    rw [to',from',subject',type']
    simp [Rfc5322.render,Rfc5322.line,header,crlf]

theorem decoded_iff : decoded (Base64.encode (Rfc5322.render (header to_ sender subject) body)) =
    some (header to_ sender subject,body) ↔ Unbroken to_ ∧ Unbroken sender ∧ Unbroken subject := by
  have typed : Unbroken (ascii "text/plain; charset=\"UTF-8\"") := by decide +kernel
  rw [decoded,Base64.decode_encode]
  simp only [Rfc5322.parse_render header_valid]
  simp [header,typed]

/-- The mail has the header it was given exactly if no value brings a line end of its own. -/
theorem header_iff (ok : encodeSimpleText to_ sender subject body = .ok encoded) :
    decoded encoded = some (header to_ sender subject,body) ↔
      Unbroken to_ ∧ Unbroken sender ∧ Unbroken subject := by
  rw [encodeSimpleText_render ok]
  exact decoded_iff

end Encoding

/-- The mail to two friends, as it is sent, and the same with a subject of two lines. -/
def friends : EmailConfig where
  recipients := [ascii "ann@example.com",ascii "ben@example.com"]
  subject := ascii "Hi"
  message := ascii "See you."

def forged : EmailConfig := { friends with subject := ascii "Hi" ++ crlf ++ ascii "Bcc: eve@example.com" }

def me : Bytes := ascii "me@example.com"

theorem friends_header : ∃ encoded,
    encodeSimpleText ((ascii ", ").intercalate friends.recipients) me friends.subject friends.message =
      .ok encoded ∧
    decoded encoded =
      some (header ((ascii ", ").intercalate friends.recipients) me friends.subject,friends.message) :=
  ⟨_,rfl,(header_iff rfl).mpr (by decide +kernel)⟩

/-- Validate takes a subject of two lines, and the second one is a header field of the mail. -/
theorem header_forged : validate (fun _ => true) forged = .ok () ∧
    ¬∀ to_ sender subject body encoded, encodeSimpleText to_ sender subject body = .ok encoded →
      decoded encoded = some (header to_ sender subject,body) := by
  refine ⟨by decide +kernel,fun claim => ?_⟩
  have read := claim ((ascii ", ").intercalate forged.recipients) me forged.subject forged.message _ rfl
  exact absurd read (by decide +kernel)

end TinyAutomator.Mail
