import PostStore.Text.Host
/-!
# URLs

A URL is a scheme, perhaps an authority (a login, a host and a port), a path and a query.  Reading
one settles the names `.` and `..` of its path; percent signs are left as they are until `decode`.
The rules are those of schemes of which nothing special is known.
-/

namespace PostStore

/-! ## Parts -/

namespace Url

/-- The login in a URL, not decoded. -/
structure Login where
  user : List Char := []
  password : Option (List Char) := none

/-- Whether a character is cut off the ends of a URL. -/
def isMargin (c : Char) : Bool := c ≤ ' '

/-- A URL without what is ignored in it: margins, and tabs and line ends anywhere. -/
def clean (url : List Char) : List Char :=
  (((url.dropWhile isMargin).reverse.dropWhile isMargin).reverse).filter fun c =>
    c ≠ '\t' && c ≠ '\n' && c ≠ '\r'

/-- Whether a character can stand in a scheme after its first letter. -/
def isSchemeChar (c : Char) : Bool := c.isAlphanum || c = '+' || c = '-' || c = '.'

/-- The scheme in small letters, and what follows the colon after it. -/
def splitScheme (url : List Char) : Option (List Char × List Char) :=
  let scheme := url.takeWhile isSchemeChar
  match scheme, url.drop scheme.length with
  | c :: _, ':' :: rest => if c.isAlpha then some (scheme.map Char.toLower, rest) else none
  | _, _ => none

/-- Whether a character ends an authority. -/
def endsAuthority (c : Char) : Bool := c = '/' || c = '?' || c = '#'

/-- Whether a character ends a path. -/
def endsPath (c : Char) : Bool := c = '?' || c = '#'

/-- The login before the last `@` of an authority, and what follows it.  With nothing around the
`@`, nothing may follow. -/
def splitLogin (rest : List Char) : Option (Login × List Char) :=
  let authority := rest.takeWhile (!endsAuthority ·)
  let place := (authority.reverse.takeWhile (· ≠ '@')).reverse
  let login := authority.take (authority.length - place.length - 1)
  let after := rest.drop (authority.length - place.length)
  if authority = ['@'] ∧ after ≠ [] then none
  else
    let user := login.takeWhile (· ≠ ':')
    let password := login.drop (user.length + 1)
    some (⟨user, if password = [] then none else some password⟩, after)

/-- The host at the front, up to a colon that stands in no brackets. -/
def splitHost (inBrackets : Bool) : List Char → List Char × List Char
  | [] => ([], [])
  | c :: rest =>
    if endsAuthority c || (c = ':' && !inBrackets) then ([], c :: rest)
    else
      let (host, after) := splitHost (c = '[' || (inBrackets && c ≠ ']')) rest
      (c :: host, after)

/-- Whether a character cannot stand in the name of a host. -/
def isForbiddenInHost (c : Char) : Bool := "\x00\t\n\r #/:<>?@[\\]^|".toList.contains c

/-- The host that is written. -/
def hostOf? (written : List Char) : Option Host :=
  match written with
  | '[' :: rest =>
    if rest.getLast? = some ']' then (Host.readGroups rest.dropLast).map .address else none
  | _ => if written.any isForbiddenInHost then none else some (.name (String.ofList written))

/-- The port after a host, and what follows it; a colon alone writes no port. -/
def splitPort : List Char → Option (Option Nat × List Char)
  | ':' :: rest =>
    let digits := rest.takeWhile Char.isDigit
    let after := rest.drop digits.length
    if after.head?.all fun c => endsAuthority c || c = '\\' then
      if digits = [] then some (none, after)
      else (Text.readUnsigned 65535 digits).toOption.map fun port => (some port, after)
    else none
  | rest => some (none, rest)

/-! ## Paths -/

/-- How many points a segment consists of, written as they are or by number. -/
def pointCount : List Char → Option Nat
  | [] => some 0
  | '.' :: rest => (pointCount rest).map (· + 1)
  | '%' :: '2' :: e :: rest => if e = 'e' ∨ e = 'E' then (pointCount rest).map (· + 1) else none
  | _ => none

/-- Whether a segment names a drive, which no `..` leaves. -/
def isDrive : List Char → Bool
  | [letter, mark] => letter.isAlpha && (mark = ':' || mark = '|')
  | letter :: mark :: '\\' :: _ => letter.isAlpha && (mark = ':' || mark = '|')
  | _ => false

/-- Goes up from the segments so far, the last first. -/
def goUp : List (List Char) → List (List Char)
  | [] => []
  | segment :: rest => if isDrive segment then segment :: rest else rest

/-- Settles the segments that stand for the directory itself and for the one around it; such a
segment at the end leaves an empty one. -/
def settle (done : List (List Char)) : List (List Char) → List (List Char)
  | [] => done.reverse
  | segment :: rest =>
    let ending := if rest = [] then [[]] else []
    match pointCount segment with
    | some 1 => settle (ending ++ done) rest
    | some 2 => settle (ending ++ goUp done) rest
    | _ => settle (segment :: done) rest

/-- The segments of a path; a path without a slash in front gets one. -/
def segments (path : List Char) : List (List Char) :=
  match path with
  | [] => []
  | '/' :: rest => settle [] (splitAtMarks (· = '/') rest)
  | _ => settle [] (splitAtMarks (· = '/') path)

/-! ## Decoding -/

/-- The text with each `%` and two hexadecimal digits replaced by the byte they stand for. -/
def decode : List Char → Bytes
  | [] => []
  | '%' :: high :: low :: rest =>
    match Text.hexValue? high, Text.hexValue? low with
    | some h, some l => UInt8.ofNat (16 * h + l) :: decode rest
    | _, _ => 37 :: decode (high :: low :: rest)
  | c :: rest => String.utf8EncodeChar c ++ decode rest

/-- The text of a field of a query, in which a plus sign stands for a space. -/
def decodeField (written : List Char) : String :=
  Text.ofUtf8Lossy (decode (written.map fun c => if c = '+' then ' ' else c))

/-- The fields of a query with their values. -/
def fields (query : List Char) : List (String × String) :=
  ((splitAtMarks (· = '&') query).filter (· ≠ [])).map fun field =>
    let name := field.takeWhile (· ≠ '=')
    (decodeField name, decodeField (field.drop (name.length + 1)))

end Url

/-! ## URLs -/

/-- A URL that was read.  The path is cut into its segments; a path that does not start with a slash
where there is no authority is of no use and is left out. -/
structure Url where
  scheme : String
  login : Url.Login := {}
  host : Option Host := none
  port : Option Nat := none
  path : Option (List (List Char))
  query : List (String × String)

namespace Url

/-- The URL with a scheme and an authority, from what follows them. -/
def finish (scheme : List Char) (login : Login) (host : Option Host) (port : Option Nat)
    (isOpaque : Bool) (rest : List Char) : Url where
  scheme := String.ofList scheme
  login := login
  host := host
  port := port
  path := if isOpaque then none else some (segments (rest.takeWhile (!endsPath ·)))
  query :=
    match rest.dropWhile (!endsPath ·) with
    | '?' :: query => fields (query.takeWhile (· ≠ '#'))
    | _ => []

/-- Reads a URL. -/
def parse? (text : String) : Option Url := do
  let (scheme, rest) ← splitScheme (clean text.toList)
  match rest with
  | '/' :: '/' :: rest =>
    let (login, rest) ← splitLogin rest
    let (written, rest) := splitHost false rest
    if written = [] then
      if rest.head? = some ':' ∨ login.user ≠ [] ∨ login.password.isSome then none
      else return finish scheme login none none false rest
    else
      let host ← hostOf? written
      let (port, rest) ← splitPort rest
      return finish scheme login (some host) port false rest
  | '/' :: _ => return finish scheme {} none none false rest
  | _ => return finish scheme {} none none true rest

/-- The value of a field of the query, the last one when there are several. -/
def field? (url : Url) (name : String) : Option String := url.query.reverse.lookup name

end Url

end PostStore
