import TaintFlow.Number.Numeral
import TaintFlow.Text.Blank
import TaintFlow.Text.Quoted

/-!
# Addresses of servers

The address of a server is a URL: a scheme, an optional user, hosts with their service numbers, a
path and parameters.

## Main definitions

* `Postgres.Address` — the parts of an address.
* `Postgres.addressProblem?` — why a text is no address of a server.
-/

namespace TaintFlow.Store.Postgres

/-- The parts of an address. -/
structure Address where
  user : List Char
  hosts : List Char
  path : List Char
  parameters : List (String × String)
  deriving Repr

/-- The text before the first character that satisfies `p`, and the text from it on. -/
def spanUntil (p : Char → Bool) (cs : List Char) : List Char × List Char :=
  (cs.takeWhile (!p ·), cs.dropWhile (!p ·))

/-- The text before and after the last `@`. -/
def splitUser (cs : List Char) : List Char × List Char :=
  let host := (cs.reverse.takeWhile (· != '@')).reverse
  (cs.take (cs.length - host.length - 1), host)

/-- A parameter and its value. -/
def parameter (s : String) : String × String :=
  (Text.cut? '=' s).getD (s, "")

/-- The parts of an address. -/
def Address.ofText (text : String) : Address :=
  let afterScheme := ((spanUntil (· == ':') text.toList).2).drop 3
  let (whole, _) := spanUntil (· == '#') afterScheme
  let (front, query) := spanUntil (· == '?') whole
  let (authority, path) := spanUntil (· == '/') front
  let (user, hosts) := splitUser authority
  { user, hosts, path,
    parameters := (Text.split '&' (String.ofList (query.drop 1))).map parameter }

/-- Whether every percent sign is followed by two hexadecimal digits. -/
def escapesOk : List Char → Bool
  | [] => true
  | '%' :: a :: b :: rest =>
    (Text.hexValue? a).isSome && (Text.hexValue? b).isSome && escapesOk rest
  | '%' :: _ => false
  | _ :: rest => escapesOk rest

/-- Whether a character may stand in the name of a host. -/
def isHostChar (c : Char) : Bool :=
  c.isAlphanum || 0x80 ≤ c.toNat || "-_.~!$&'()*+,;=:[]<>\"%".toList.contains c

/-- The service number of the last host with the colon in front of it. -/
def lastNumber (hosts : List Char) : List Char :=
  let tail := hosts.reverse.takeWhile (fun c => c != ':' && c != ']')
  if (hosts.reverse.drop tail.length).head? == some ':' then ':' :: tail.reverse else []

/-- The service numbers of a list of hosts. -/
def numbersOf (hosts : List Char) : List String :=
  (Text.splitList ',' hosts).filterMap fun h =>
    match lastNumber h with
    | _ :: c :: cs => some (String.ofList (c :: cs))
    | _ => none

/-- Whether a text is a service number. -/
def isServiceNumber (s : String) : Bool :=
  match Numeral.decimal s with
  | .value n => 1 ≤ n && n ≤ 65535
  | _ => false

/-- The words for how much a connection must be protected. -/
def protections : List String :=
  ["", "disable", "allow", "prefer", "require", "verify-ca", "verify-full"]

/-- Why a text is no URL. -/
def urlProblem? (text : String) (a : Address) : Option String :=
  let number := lastNumber a.hosts
  if text.toList.any (fun c => c.toNat < 0x20 || c.toNat == 0x7F) then
    some "invalid control character in URL"
  else if !escapesOk (a.user ++ a.hosts ++ a.path) then some "invalid URL escape"
  else if !a.hosts.all isHostChar then some "invalid character in host name"
  else if !(number.drop 1).all Char.isDigit then
    some ("invalid port " ++ Text.quoted (String.ofList number) ++ " after host")
  else none

/-- Why a text is no address of a server. -/
def addressProblem? (text : String) : Option String :=
  let a := Address.ofText text
  let numbers := (a.parameters.filter (·.1 == "port")).flatMap (Text.split ',' ·.2)
  match urlProblem? text a with
  | some problem => some ("failed to parse as URL (" ++ problem ++ ")")
  | none =>
    let given := if numbers.isEmpty then numbersOf a.hosts else numbers
    if !given.all isServiceNumber then some "invalid port"
    else if a.parameters.any fun p => p.1 == "sslmode" && !protections.contains p.2 then
      some "failed to configure TLS (sslmode is invalid)"
    else none

end TaintFlow.Store.Postgres
