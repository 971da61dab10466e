/-
  File:      SchemaCompiler/Uri/Reference.lean
  Subject:   Which texts are URIs, and which are references to resolve against a web URI.

  `Uri.parse?` accepts a URI with a scheme and gives its fragment. `Uri.isReference` accepts also
  what has no scheme: it is read against a base whose scheme is `https`, and is refused only for a
  bad authority. Paths, queries and fragments are never refused.
-/
import SchemaCompiler.Uri.Host

namespace SchemaCompiler

/-- An accepted URI; only its fragment is asked for later. -/
structure Uri where
  fragment : Option (List Char)
  deriving DecidableEq, Repr

namespace Uri

/-! ## 1. Scheme -/

/-- The text without the blanks and controls around it, and without tabs and line ends. -/
def clean (raw : List Char) : List Char :=
  let outer (c : Char) : Bool := c.toNat ≤ 0x20
  let inner := ((raw.dropWhile outer).reverse.dropWhile outer).reverse
  inner.filter fun c => !(c = '\t' || c = '\n' || c = '\r')

def isSchemeChar (c : Char) : Bool :=
  isAsciiLetter c || isDigit c || c = '+' || c = '-' || c = '.'

/-- The scheme in lower case, and the text after its colon. -/
def splitScheme? (text : List Char) : Option (List Char × List Char) :=
  match text with
  | [] => none
  | first :: _ =>
    if isAsciiLetter first then
      match text.dropWhile isSchemeChar with
      | ':' :: rest => some ((text.takeWhile isSchemeChar).map asciiLower, rest)
      | _ => none
    else none

/-- The web schemes need a host and take a backslash for a slash; `file` has rules of its own. -/
inductive SchemeKind where
  | web | file | other
  deriving DecidableEq, Repr

def SchemeKind.ofName (scheme : List Char) : SchemeKind :=
  if ["http", "https", "ws", "wss", "ftp"].contains (String.ofList scheme) then .web
  else if String.ofList scheme = "file" then .file
  else .other

/-! ## 2. Authority -/

def isSlash (c : Char) : Bool := c = '/' || c = '\\'

/-- Whether a character ends an authority. -/
def endsAuthority (kind : SchemeKind) (c : Char) : Bool :=
  c = '/' || c = '?' || c = '#' || (c = '\\' && kind == .web)

/-- What the part before the last at sign is. -/
inductive UserInfo where
  /-- No user and no password. -/
  | absent
  | present
  /-- Nothing before the at sign and no host after it. -/
  | hostless
  deriving DecidableEq, Repr

/-- Splits the user information off the front: what it is, and the text after the at sign. -/
def splitUserInfo (kind : SchemeKind) (text : List Char) : UserInfo × List Char :=
  let authority := text.takeWhile (!endsAuthority kind ·)
  if authority.contains '@' then
    let host := (authority.reverse.takeWhile (· ≠ '@')).reverse
    let user := authority.take (authority.length - host.length - 1)
    let rest := text.drop (user.length + 1)
    if user.isEmpty then
      match rest with
      | c :: _ => (if endsAuthority kind c then .hostless else .absent, rest)
      | [] => (.absent, rest)
    else (if user = [':'] then .absent else .present, rest)
  else (.absent, text)

/-- How many characters the host takes: up to a colon outside brackets, or the end of the
    authority. -/
def hostLength (kind : SchemeKind) : Bool → List Char → Nat
  | _, [] => 0
  | bracketed, c :: rest =>
    if endsAuthority kind c || (c = ':' && !bracketed) then 0
    else
      let bracketed := if c = '[' then true else if c = ']' then false else bracketed
      hostLength kind bracketed rest + 1

/-- Whether what follows a host may stand there: a colon has a number of at most 65535 after it, or
    no digits, and then the authority ends. -/
def isPortAndEnd : List Char → Bool
  | ':' :: rest =>
    digitsValue 10 (rest.takeWhile isDigit) ≤ 65535 &&
      match rest.dropWhile isDigit with
      | [] => true
      | c :: _ => c = '/' || c = '\\' || c = '?' || c = '#'
  | _ => true

/-- Whether a text after the two slashes begins with an authority. -/
def isAuthority (kind : SchemeKind) (text : List Char) : Bool :=
  let (user, rest) := splitUserInfo kind text
  let length := hostLength kind false rest
  let host := rest.take length
  let after := rest.drop length
  let hostAllowed :=
    if kind = .web then !host.isEmpty && Host.isDomain host
    else Host.isOpaque host && !(host.isEmpty && (after.head? = some ':' || user = .present))
  user != .hostless && hostAllowed && isPortAndEnd after

/-! ## 3. Files -/

def isDriveLetter (text : List Char) : Bool :=
  match text with
  | [letter, mark] => isAsciiLetter letter && (mark = ':' || mark = '|')
  | _ => false

/-- The text after the scheme `file`: only a host between two slashes and the path can be
    refused. -/
def isFile (text : List Char) : Bool :=
  match text with
  | a :: b :: rest =>
    if isSlash a && isSlash b then
      let host := rest.takeWhile fun c => !(isSlash c || c = '?' || c = '#')
      host.isEmpty || isDriveLetter host || Host.isDomain host
    else true
  | _ => true

/-! ## 4. URIs and references -/

/-- The text after a scheme, without a base. -/
def isAfterScheme (kind : SchemeKind) (text : List Char) : Bool :=
  match kind with
  | .file => isFile text
  | .web => isAuthority .web (text.dropWhile isSlash)
  | .other =>
    match text with
    | '/' :: '/' :: rest => isAuthority .other rest
    | _ => true

/-- The text after a number sign, if there is one. -/
def fragmentOf (text : List Char) : Option (List Char) :=
  match text.dropWhile (· ≠ '#') with
  | [] => none
  | _ :: fragment => some fragment

/-- Reads a URI, which has a scheme. -/
def parse? (raw : List Char) : Option Uri :=
  let text := clean raw
  match splitScheme? text with
  | none => none
  | some (scheme, rest) =>
    if isAfterScheme (SchemeKind.ofName scheme) rest then some ⟨fragmentOf text⟩ else none

/-- A text read against a web base: two slashes or more begin an authority. -/
def isRelative (text : List Char) : Bool :=
  let slashes := text.takeWhile isSlash
  if slashes.length < 2 then true
  else
    match text with
    | '/' :: '/' :: rest => isAuthority .web rest
    | _ => isAuthority .web (text.dropWhile isSlash)

/-- Whether a text is a reference to resolve against an `https` URI. A text with that very scheme
    and fewer than two slashes is relative. -/
def isReference (raw : List Char) : Bool :=
  let text := clean raw
  match splitScheme? text with
  | none => isRelative text
  | some (scheme, rest) =>
    if String.ofList scheme = "https" ∧ (rest.takeWhile isSlash).length < 2 then isRelative rest
    else isAfterScheme (SchemeKind.ofName scheme) rest

end Uri

end SchemaCompiler
