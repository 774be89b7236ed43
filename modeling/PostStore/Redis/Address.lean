import PostStore.Text.Url
/-!
# Addresses of key-value servers

An address is written as a URL: of a socket in the file system, or of a host and a port.  The URL
also tells how to log in, which of the numbered databases to use, and which protocol to speak.
-/

namespace PostStore.Redis

/-- Where a server is. -/
inductive Address where
  | socket (path : Bytes)
  | host (host : Host) (port : Nat)
  deriving DecidableEq, Repr

/-- The versions of the protocol. -/
inductive Protocol where
  | second
  | third
  deriving DecidableEq, Repr

/-- How a server is entered. -/
structure Access where
  address : Address
  database : Int := 0
  user : Option String := none
  password : Option String := none
  protocol : Protocol := .second
  deriving DecidableEq, Repr

/-- Why a URL is not an address. -/
inductive AddressError where
  | notUrl
  | noHost
  | noPath
  | secured
  | badDatabase
  | badUser
  | badPassword
  | badProtocol (name : String)
  deriving DecidableEq, Repr

/-- The wording of an `AddressError`. -/
def AddressError.message (e : AddressError) : String :=
  let about (what : String) := what ++ "- InvalidClientConfig"
  match e with
  | .notUrl => about "Redis URL did not parse"
  | .noHost => about "Missing hostname"
  | .noPath => about "Missing path"
  | .secured => about "can't connect with TLS, the feature is not enabled"
  | .badDatabase => about "Invalid database number"
  | .badUser => about "Username is not valid UTF-8 string"
  | .badPassword => about "Password is not valid UTF-8 string"
  | .badProtocol name => "Invalid protocol version - InvalidClientConfig: " ++ name

namespace Access

/-- The port of a server that names none. -/
def defaultPort : Nat := 6379

/-- The number of a database. -/
def readDatabase (text : List Char) : Except AddressError Int :=
  match Text.readSigned? 9223372036854775807 text with
  | some n => .ok n
  | none => .error .badDatabase

/-- The protocol that the query asks for. -/
def readProtocol (url : Url) : Except AddressError Protocol :=
  match url.field? "protocol" with
  | none => .ok .second
  | some name =>
    if name = "2" ∨ name = "resp2" then .ok .second
    else if name = "3" ∨ name = "resp3" then .ok .third
    else .error (.badProtocol name)

/-- Decodes a part of the login. -/
def readLogin (error : AddressError) (written : List Char) : Except AddressError String :=
  match Text.ofUtf8? (Url.decode written) with
  | some text => .ok text
  | none => .error error

/-- The path in the file system with given segments; one that ends in the name of a drive gets a
slash. -/
def filePath (segments : List (List Char)) : Bytes :=
  let path := segments.flatMap fun segment => 47 :: Url.decode segment
  match path.reverse with
  | mark :: letter :: _ :: _ =>
    if (Char.ofNat letter.toNat).isAlpha && (mark = 58 || mark = 124) then path ++ [47] else path
  | _ => path

/-- The path of a URL without the slashes around it. -/
def innerPath (url : Url) : List Char :=
  let path := (url.path.getD []).flatMap ('/' :: ·)
  ((path.dropWhile (· = '/')).reverse.dropWhile (· = '/')).reverse

/-- The way to the server behind a socket. -/
def ofSocket (url : Url) : Except AddressError Access := do
  let segments := url.path.getD []
  if segments = [] ∨ (url.host ≠ none ∧ url.host ≠ some (.name "localhost")) then
    throw .noPath
  let database ← match url.field? "db" with
    | none => pure 0
    | some text => readDatabase text.toList
  let protocol ← readProtocol url
  return {
    address := .socket (filePath segments)
    database := database
    user := url.field? "user"
    password := url.field? "pass"
    protocol := protocol }

/-- The way to the server on a host. -/
def ofHost (isSecured : Bool) (url : Url) : Except AddressError Access := do
  match url.host with
  | none => throw .noHost
  | some host =>
    if isSecured then throw .secured
    let path := innerPath url
    let database ← if path = [] then pure 0 else readDatabase path
    let user ← if url.login.user = [] then pure none
      else some <$> readLogin .badUser url.login.user
    let password ← match url.login.password with
      | none => pure none
      | some written => some <$> readLogin .badPassword written
    let protocol ← readProtocol url
    return {
      address := .host host (url.port.getD defaultPort)
      database := database
      user := user
      password := password
      protocol := protocol }

/-- The way to the server that a URL denotes. -/
def ofUrl (text : String) : Except AddressError Access :=
  match Url.parse? text with
  | none => .error .notUrl
  | some url =>
    if url.scheme = "redis" then ofHost false url
    else if url.scheme = "rediss" then ofHost true url
    else if url.scheme = "unix" ∨ url.scheme = "redis+unix" then ofSocket url
    else .error .notUrl

end Access

end PostStore.Redis
