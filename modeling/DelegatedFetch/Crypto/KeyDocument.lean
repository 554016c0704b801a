import DelegatedFetch.Crypto.Der
import DelegatedFetch.Crypto.Rsa
import DelegatedFetch.Text.Base64
import DelegatedFetch.Text.Blank
import DelegatedFetch.Text.Utf8

/-!
# RSA private keys as documents

A key document is a plain list of the numbers of an RSA key, or the general
form that names the algorithm and wraps that list. Either is given as DER, as
PEM text with a label for its form, or as bare base64 of the DER.
-/

namespace DelegatedFetch.KeyDocument

open Rsa

/-- The key of a list of numbers. A key of more than two primes is refused. -/
def rsaDer? (b : Bytes) : Option PrivateKey := do
  let (content, rest) ← Der.element? .sequence b
  let (numbers, extra) ← Der.naturals? 9 content
  match numbers with
  | [0, n, e, d, p, q, _, _, _] =>
    let k : PrivateKey := ⟨n, e, d, p, q⟩
    if rest = [] ∧ extra = [] ∧ k.IsSound then some k else none
  | _ => none

def rsaObjectId : Bytes := [0x2A, 0x86, 0x48, 0x86, 0xF7, 0x0D, 0x01, 0x01, 0x01]

/-- Extension fields carry tags of their context. -/
def isExtension (tag : UInt8) : Bool := 0x80 ≤ tag && tag ≤ 0xBF

def isPublicKeyField (tag : UInt8) : Bool := tag == 0x81

/-- The first field after the wrapped key is a public key. -/
def beginsWithPublicKey (extensions : Bytes) : Bool :=
  match Der.any? extensions with
  | some (tag, _, _) => isPublicKeyField tag
  | none => false

/-- The key of the general form: version, algorithm, wrapped key, extensions. Version 1 has a public
key after the wrapped key, version 0 has none. -/
def generalDer? (b : Bytes) : Option PrivateKey := do
  let (content, rest) ← Der.element? .sequence b
  let (version, content) ← Der.natural? content
  let (algorithm, content) ← Der.element? .sequence content
  let (objectId, parameters) ← Der.element? .objectId algorithm
  let (null, afterNull) ← Der.element? .null parameters
  let (key, extensions) ← Der.element? .octetString content
  if rest = [] ∧ objectId = rsaObjectId ∧ null = [] ∧ afterNull = [] ∧
      (version = 0 ∧ beginsWithPublicKey extensions = false ∨
        version = 1 ∧ beginsWithPublicKey extensions = true) ∧
      Der.elementsWith isExtension extensions.length extensions then
    rsaDer? key
  else none

def ofDer? (b : Bytes) : Option PrivateKey := generalDer? b <|> rsaDer? b

/-- What follows a list at the front of another, if it is there. -/
def afterPart? : List Char → List Char → Option (List Char)
  | [], rest => some rest
  | c :: part, d :: rest => if c = d then afterPart? part rest else none
  | _ :: _, [] => none

def afterLineEnd? : List Char → Option (List Char)
  | '\r' :: '\n' :: rest => some rest
  | '\n' :: rest | '\r' :: rest => some rest
  | _ => none

def beforeLineEnd? (cs : List Char) : Option (List Char) :=
  match cs.reverse with
  | '\n' :: '\r' :: rest | '\n' :: rest | '\r' :: rest => some rest.reverse
  | _ => none

/-- What follows the first opening marker. Text before it must end its line and hold no zero
character. -/
def afterOpening? : Bool → List Char → Option (List Char)
  | _, [] => none
  | atLineStart, c :: rest =>
    match if atLineStart then afterPart? "-----BEGIN ".toList (c :: rest) else none with
    | some after => some after
    | none => if c = '\x00' then none else afterOpening? (c == '\n') rest

/-- The characters of base64 lines: full lines have 64 characters, the last may have fewer. -/
def unwrap? : Nat → List Char → Option (List Char)
  | 0, _ => none
  | fuel + 1, cs =>
    if cs.length ≤ 64 then some ((beforeLineEnd? cs).getD cs)
    else do
      let rest ← afterLineEnd? (cs.drop 64)
      let more ← unwrap? fuel rest
      some (cs.take 64 ++ more)

/-- The bytes between the markers of a label, the closing one at the very end of the text. -/
def pemBody? (label : String) (text : List Char) : Option Bytes := do
  let after ← afterOpening? true text
  let after ← afterPart? (label ++ "-----").toList after
  let after ← afterLineEnd? after
  let closing := ("-----END " ++ label ++ "-----").toList
  let all := (beforeLineEnd? after).getD after
  let n := all.length - closing.length
  if all.drop n = closing then
    let body ← beforeLineEnd? (all.take n)
    Base64.decodeChars? Base64.standard (← unwrap? (body.length + 1) body)
  else none

def ofPem? (text : String) : Option PrivateKey :=
  (pemBody? "PRIVATE KEY" text.toList).bind generalDer? <|>
    (pemBody? "RSA PRIVATE KEY" text.toList).bind rsaDer?

/-- Why a text is not a key. -/
inductive Error where
  | unreadable
  | neitherForm
  deriving DecidableEq, Repr

def containsPart (part : List Char) : List Char → Bool
  | [] => part.isEmpty
  | c :: rest => part.isPrefixOf (c :: rest) || containsPart part rest

/-- The key of a text that is PEM, or else base64 of DER with blanks anywhere. -/
def ofText (text : String) : Except Error PrivateKey :=
  if containsPart "-----BEGIN".toList text.toList then
    match ofPem? text with
    | some k => .ok k
    | none => .error .unreadable
  else
    match Base64.decodeChars? Base64.standard (text.toList.filter (!isBlank ·)) with
    | none => .error .neitherForm
    | some der =>
      match ofDer? der with
      | some k => .ok k
      | none => .error .unreadable

end DelegatedFetch.KeyDocument
