import Mathlib.Algebra.Group.Nat.Defs
import Selium.Abi.Selector
import Selium.Lib.Map

/-! The `sel://` address space and its projection to wire names. -/
namespace Selium.Abi
open Lib Lib.Text

def ResourceClass.uriSegment : ResourceClass → Text
  | .sharedRegion => "region".toList
  | .sharedMapping => "mapping".toList
  | .signal => "signal".toList
  | .tcpListener => "listener".toList
  | .tcpStream => "stream".toList
  | .udpSocket => "socket".toList
  | .durableLog => "log".toList
  | .blobStore => "blob".toList
  | .process => "proc".toList
  | .activityLog => "activity".toList
  | .meteringStream => "metering".toList
  | .guestLog => "guest-log".toList
  | .hostQueue => "queue".toList
  | .cpu => "cpu".toList

def ResourceClass.all : List ResourceClass :=
  [.sharedRegion,.sharedMapping,.signal,.tcpListener,.tcpStream,.udpSocket,.durableLog,.blobStore,.process,.activityLog,
    .meteringStream,.guestLog,.hostQueue,.cpu]

/-- The segments are pairwise different, so the first class with the segment is the only one. -/
def ResourceClass.fromUriSegment (segment : Text) : Option ResourceClass :=
  ResourceClass.all.find? (fun cls => cls.uriSegment == segment)

namespace Uri

def selPrefix : Text := "sel://".toList

def stripPrefix (front text : Text) : Option Text := if front.isPrefixOf text then some (text.drop front.length) else none
def trimSlashes (text : Text) : Text := trim (· == '/') text
def trimEndSlashes (text : Text) : Text := text.rdropWhile (· == '/')
def segments (path : Text) : List Text := path.splitOn '/'
def joinPath (path : List Text) : Text := List.intercalate ['/'] path

def isClassSegment (segment : Text) : Bool := (ResourceClass.fromUriSegment segment).isSome

def isLowercase (c : Char) : Bool := 'a' ≤ c && c ≤ 'z'
def toAsciiLowercase (text : Text) : Text := text.map Char.toLower

/-- Labels are counted in octets; every other condition makes the label ASCII. -/
def isDnsSafeLabel (segment : Text) : Bool :=
  !segment.isEmpty && decide ((String.ofList segment).utf8ByteSize ≤ 63) && segment.head? != some '-' &&
    segment.getLast? != some '-' && segment.all (fun c => isLowercase c || c.isDigit || c == '-')

/-- A port is stripped when it has digits only, which an empty port has too. -/
def normalizeHost (host : Text) : Text :=
  let host := toAsciiLowercase (trim isWhitespace host)
  let host := if host.getLast? = some '.' then host.dropLast else host
  match rsplitOnce ':' host with
  | some (name,port) => if port.all Char.isDigit && !name.isEmpty then name else host
  | none => host

/-- Authority and path; the path has no slashes around it. -/
def parseSel (uri : Text) : Option (Text × Text) :=
  match stripPrefix selPrefix uri with
  | none => none
  | some rest =>
    let (tenant,path) := (splitOnce ['/'] rest).getD (rest,[])
    some (tenant,trimSlashes path)

def digitValue (c : Char) : Nat := c.toNat - '0'.toNat

/-- Decimal text of a 64-bit number, with an optional plus sign and any leading zeros. -/
def parseU64 (text : Text) : Option Nat :=
  let digits := if text.head? = some '+' then text.drop 1 else text
  if digits.isEmpty || !digits.all Char.isDigit then none
  else
    let value := digits.foldl (fun value c => value * 10 + digitValue c) 0
    if value < 2^64 then some value else none

def parseTyped (uri : Text) : Option (Text × ResourceClass × Nat) := do
  let (tenant,path) ← parseSel uri
  let (classSegment,idSegment) ← splitOnce ['/'] path
  if idSegment.isEmpty || idSegment.contains '/' then none
  else
    let cls ← ResourceClass.fromUriSegment classSegment
    let id ← parseU64 idSegment
    return (tenant,cls,id)

def parseAlias (uri : Text) : Option (Text × Text) := do
  let (tenant,path) ← parseSel uri
  if path.isEmpty || path.contains '/' then none
  else if isClassSegment path then none
  else return (tenant,path)

def isRootUri (uri : Text) : Bool :=
  match parseSel uri with
  | some (tenant,_) => tenant.isEmpty
  | none => false

def resourceUri (tenant : Text) (cls : ResourceClass) (id : Nat) : Text :=
  selPrefix ++ tenant ++ ['/'] ++ cls.uriSegment ++ ['/'] ++ (Nat.toDigits 10 id)

def serviceUri (tenant : Text) (path : List Text) : Text := selPrefix ++ tenant ++ ['/'] ++ joinPath path

def wildcardPrefix (path : Text) : Option Text :=
  let stripped := trimEndSlashes path
  if stripped.getLast? = some '*' then some (trimEndSlashes stripped.dropLast) else none

end Uri

abbrev DomainTable := Map Text Text

namespace DomainTable
def seed (table : DomainTable) (domain tenant : Text) : DomainTable := table.insert (Uri.normalizeHost domain) tenant
end DomainTable

namespace Uri

def domainMatch (domains : DomainTable) : List Text → List Text → Option (Text × List Text)
  | _,[] => none
  | front,label :: labels =>
    match domains.lookup (List.intercalate ['.'] (label :: labels)) with
    | some tenant => some (tenant,front)
    | none => domainMatch domains (front ++ [label]) labels

/-- Without a provisioned domain the last label is the tenant, and a single label is a name under root. -/
def syntheticTenant (labels : List Text) : Text × List Text :=
  match labels.getLast? with
  | some tenant => if labels.length > 1 then (tenant,labels.dropLast) else ([],labels)
  | none => ([],labels)

def resolveWireName (name : Text) (domains : DomainTable) : Option (Text × List Text) :=
  let name := normalizeHost name
  if name.isEmpty then none
  else
    let labels := name.splitOn '.'
    let (tenant,remaining) := (domainMatch domains [] labels).getD (syntheticTenant labels)
    if remaining.all isDnsSafeLabel then some (tenant,remaining.reverse) else none

end Uri
end Selium.Abi
