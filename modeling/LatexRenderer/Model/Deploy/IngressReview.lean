import LatexRenderer.Machine.Prefixes
import LatexRenderer.Model.Deploy.LanAddress

/-! # The review of an ingress

`validateServerIngressReview` checks which address an ingress listens at, and which client networks it admits.
`lanHttpsInterfaceChoices` offers the addresses of the interfaces with their networks; it computes them apart from the
review.
-/

namespace LatexRenderer

open Machine

/-- A field of a record: missing, of another type, or there. -/
inductive RecordField (α : Type) where
  | absent
  | other
  | value (content : α)
deriving DecidableEq, Repr

/-- The field as a value of its type. -/
def RecordField.toOption {α : Type} : RecordField α → Option α
  | .value content => some content
  | _ => none

/-- What `new URL` makes of a text. -/
structure ParsedUrl where
  protocol : Text
  username : Text
  password : Text
  hostname : Text
  port : Text
  pathname : Text
  search : Text
  hash : Text
  origin : Text
deriving DecidableEq, Repr

/-- `new URL`. -/
abbrev UrlParser : Type := Text → Option ParsedUrl

section Addresses

inductive AddressFamily where
  | four
  | six
deriving DecidableEq, Repr

/-- The bits of an address. -/
def AddressFamily.bits : AddressFamily → Nat
  | .four => 32
  | .six => 128

/-- The errors of the review of an ingress. -/
inductive IngressError where
  | record (label : String)
  | format
  | text (label : String)
  | origin
  | scope
  | cloudflare
  | provider
  | hostname
  | address
  | localAddress
  | lanAddress
  | internetAddress
  | unicast
  | port
  | networkCount
  | networkEntry
  | networkLiteral
  | networkPrefix
  | networkBits
  | networkPrivate
  | networkRepeated
  | networkMissing
  | networkScope
  | lanSettings
  | lanTerms
  | lanPolicy
  | lanName (error : LanNameError)
  | lanServerOrigin
  | lanProvider
  | lanNamespace
  | lanPort
  | lanPublicOrigin
deriving DecidableEq, Repr

/-- The texts of the errors. -/
def IngressError.message : IngressError → String
  | .record label => label ++ " contains unsupported fields or accessors"
  | .format => "Ingress review format must be 1"
  | .text label => label ++ " must be a string"
  | .origin => "Ingress requires an exact HTTPS origin"
  | .scope => "Ingress access scope must be local, lan or internet"
  | .cloudflare =>
    "Cloudflare ingress preserves its external configuration; do not add standalone listener settings"
  | .provider => "Standalone ingress requires custom or automatic HTTPS"
  | .hostname => "Standalone ingress requires an IP or DNS labels without a trailing dot"
  | .address => "Ingress address must be a literal IPv4/IPv6 address without zone or port"
  | .localAddress => "Local ingress must listen on loopback only"
  | .lanAddress => "LAN ingress must bind an explicit private interface address"
  | .internetAddress => "Internet ingress requires an external or wildcard listen address"
  | .unicast => "Ingress listener must be a unicast address"
  | .port => "Ingress port overlaps reserved internal application ports"
  | .networkCount => "LAN ingress requires 1–32 explicit private client networks"
  | .networkEntry => "LAN networks must be plain data entries"
  | .networkLiteral => "LAN networks must be literal canonical CIDRs"
  | .networkPrefix => "LAN network prefix is invalid"
  | .networkBits => "LAN CIDR contains host bits"
  | .networkPrivate => "LAN client networks must be private canonical CIDRs"
  | .networkRepeated => "LAN client networks must be unique"
  | .networkMissing => "LAN client networks must include the selected interface subnet"
  | .networkScope => "Client networks are only supported for LAN ingress"
  | .lanSettings => "Automatic HTTPS requires explicit LAN certificate settings"
  | .lanTerms => "LAN certificate origin/address and explicit CA terms must match ingress"
  | .lanPolicy => "LAN certificate policy requires automatic HTTPS"
  | .lanName error => error.message
  | .lanServerOrigin => "LAN HTTPS server requires an exact HTTPS origin"
  | .lanProvider => "LAN HTTPS requires an explicit provider and fallback policy"
  | .lanNamespace => "Authority API must be outside the shared LAN certificate namespace"
  | .lanPort => "LAN HTTPS port is invalid or reserved for internal services"
  | .lanPublicOrigin => "LAN HTTPS public origin must match the selected address and domain"

/-- An address as a number. -/
structure IngressAddress where
  family : AddressFamily
  value : Nat
deriving DecidableEq, Repr

/-- A network: its base, the length of its prefix and its mask. -/
structure IngressNetwork where
  family : AddressFamily
  value : Nat
  length : Nat
  mask : Nat
deriving DecidableEq, Repr

def addressValue (address : Text) : Except IngressError IngressAddress :=
  if '%' ∈ address then .error .address
  else match ipv4? address, ipv6? address with
    | some _, _ =>
      .ok ⟨.four, (splitText '.' address).foldl (fun n octet => n <<< 8 ||| numberText 10 octet) 0⟩
    | none, some words =>
      .ok ⟨.six, (canonicalWords (ipv6Hostname words)).foldl (fun n word => n <<< 16 ||| numberText 16 word) 0⟩
    | none, none => .error .address

/-- `/^[0-9a-fA-F:.]+$/`. -/
def addressChars (text : Text) : Bool := decide (text ≠ []) && text.all fun c => hexDigit c || c == ':' || c == '.'

def networkValue (value : Text) : Except IngressError IngressNetwork :=
  match splitText '/' value with
  | [address, rawPrefix] => do
    demand (addressChars address ∧ rawPrefix ≠ [] ∧ rawPrefix.all Char.isDigit) .networkLiteral
    let ip ← addressValue address
    let length := numberText 10 rawPrefix
    demand (length ≤ ip.family.bits ∧ toText 10 length = rawPrefix) .networkPrefix
    let mask := ((1 <<< ip.family.bits) - 1) ^^^ ((1 <<< (ip.family.bits - length)) - 1)
    demand (ip.value &&& mask = ip.value) .networkBits
    pure ⟨ip.family, ip.value, length, mask⟩
  | _ => .error .networkLiteral

def networkContains (network : IngressNetwork) (ip : IngressAddress) : Bool :=
  decide (network.family = ip.family) && decide (ip.value &&& network.mask = network.value)

/-- `inNetwork`, of a network that is one. -/
def inNetwork (ip : IngressAddress) (value : Text) : Bool :=
  match networkValue value with
  | .ok network => networkContains network ip
  | .error _ => false

def privateNetworks : List Text :=
  ["10.0.0.0/8".toList, "172.16.0.0/12".toList, "192.168.0.0/16".toList, "fc00::/7".toList]

/-- `privateAddress` of the review. -/
def privateListener (ip : IngressAddress) : Bool := privateNetworks.any (inNetwork ip)

def privateNetwork (network : IngressNetwork) : Bool :=
  privateNetworks.any fun value =>
    match networkValue value with
    | .ok parent => decide (parent.length ≤ network.length) && networkContains parent ⟨network.family, network.value⟩
    | .error _ => false

def serverIngressContainsAddress (network address : Text) : Except IngressError Bool := do
  let checked ← networkValue network
  let ip ← addressValue address
  pure (networkContains checked ip)

end Addresses

section Providers

variable (url : UrlParser)

def validateLanHttpsServerOrigin (value : Text) : Except IngressError Text := do
  let parsed ← obtain? (url value) .lanServerOrigin
  demand (value = parsed.origin ∧ parsed.protocol = "https:".toList ∧ parsed.username = [] ∧ parsed.password = [])
    .lanServerOrigin
  pure parsed.origin

def lanHttpsOrigin (address domain : Text) (port : Nat) : Except IngressError Text := do
  demand (1 ≤ port ∧ port ≤ 65535 ∧ ¬ (3100 ≤ port ∧ port ≤ 3199)) .lanPort
  match lanHttpsHostname address domain with
  | .ok hostname =>
    pure ("https://".toList ++ hostname ++ if port = 443 then [] else ':' :: toText 10 port)
  | .error error => throw (.lanName error)

/-- The input of `validateLanHttpsProvider`. -/
structure LanProviderInput where
  plain : Bool
  format : Option Nat
  provider : Option Text
  serverOrigin : Option Text
  lanDomain : Option Text
  address : Option Text
  port : RecordField Nat
  keylessFallback : Option Bool
  publicOrigin : RecordField Text
deriving DecidableEq, Repr

/-- A provider that was checked. -/
structure LanProvider where
  provider : Text
  serverOrigin : Text
  lanDomain : Text
  address : Text
  port : Nat
  keylessFallback : Bool
  publicOrigin : Text
deriving DecidableEq, Repr

/-- An error of a LAN name as one of the review. -/
def ofLanName {α : Type} : Except LanNameError α → Except IngressError α
  | .ok value => .ok value
  | .error error => .error (.lanName error)

def validateLanHttpsProvider (input : LanProviderInput) : Except IngressError LanProvider := do
  demand (input.plain = true) (.record "LAN HTTPS provider")
  demand (input.format = some 1 ∧ (input.provider = some "akebi-keyless".toList ∨
    input.provider = some "akebi-local-acme".toList)) .lanProvider
  let keylessFallback ← obtain? input.keylessFallback .lanProvider
  demand (input.provider = some "akebi-keyless".toList → keylessFallback = true) .lanProvider
  let rawOrigin ← obtain? input.serverOrigin .lanServerOrigin
  let serverOrigin ← validateLanHttpsServerOrigin url rawOrigin
  let rawDomain ← obtain? input.lanDomain (.lanName .domain)
  let lanDomain ← ofLanName (normalizeLanHttpsDomain rawDomain)
  let api ← obtain? (url serverOrigin) .lanServerOrigin
  demand (api.hostname ≠ lanDomain ∧ ¬ ('.' :: lanDomain) <:+ api.hostname) .lanNamespace
  let rawAddress ← obtain? input.address (.lanName .address)
  let checked ← ofLanName (privateAddress rawAddress)
  let port ← match input.port with
    | .absent => pure 443
    | .value port => pure port
    | .other => throw .lanPort
  let publicOrigin ← lanHttpsOrigin checked.address lanDomain port
  demand (input.publicOrigin = .absent ∨ input.publicOrigin = .value publicOrigin) .lanPublicOrigin
  pure {
    provider := input.provider.getD []
    serverOrigin
    lanDomain
    address := checked.address
    port
    keylessFallback
    publicOrigin }

end Providers

section Review

/-- The input of automatic LAN HTTPS. -/
structure LanHttpsInput where
  plain : Bool
  format : Option Nat
  provider : LanProviderInput
  issuerId : Option Text
  termsAccepted : Option Bool
deriving DecidableEq, Repr

/-- Automatic LAN HTTPS that was checked. -/
structure LanHttpsReview where
  provider : LanProvider
  issuerId : Text
  termsAccepted : Bool
deriving DecidableEq, Repr

/-- The input of `validateServerIngressReview`; an entry of the networks is nothing when it is no text. -/
structure IngressInput where
  plain : Bool
  format : Option Nat
  mode : Option Text
  publicOrigin : Option Text
  accessScope : Option Text
  tlsProvider : Option Text
  listenAddress : RecordField Text
  allowedNetworks : RecordField (List (Option Text))
  lanHttps : RecordField LanHttpsInput
deriving DecidableEq, Repr

/-- A review that was accepted. -/
structure IngressReview where
  mode : Text
  publicOrigin : Text
  accessScope : Text
  tlsProvider : Text
  listenAddress : Option Text
  lanHttps : Option LanHttpsReview
  allowedNetworks : Option (List Text)
deriving DecidableEq, Repr

/-- `\s`. -/
def jsSpace (c : Char) : Bool :=
  [0x09, 0x0a, 0x0b, 0x0c, 0x0d, 0x20, 0xa0, 0x1680, 0x2028, 0x2029, 0x202f, 0x205f, 0x3000, 0xfeff].contains c.toNat ||
    (decide (0x2000 ≤ c.toNat) && decide (c.toNat ≤ 0x200a))

/-- The characters that no origin may have. -/
def originChar (c : Char) : Bool :=
  !(jsSpace c || c == '\\' || decide (c.toNat ≤ 0x1f) || decide (c.toNat = 0x7f))

/-- `/^[a-z][a-z0-9-]{0,31}$/`. -/
def issuerId : Text → Bool
  | [] => false
  | first :: rest => first.isLower && decide (rest.length ≤ 31) &&
      rest.all fun c => c.isLower || c.isDigit || c == '-'

/-- The origin of a review. -/
def ingressOrigin (url : UrlParser) (rawOrigin : Text) : Except IngressError ParsedUrl := do
  let origin ← obtain? (url rawOrigin) .origin
  demand (rawOrigin.all originChar ∧ origin.protocol = "https:".toList ∧ origin.username = [] ∧ origin.password = [] ∧
    origin.pathname = ['/'] ∧ origin.search = [] ∧ origin.hash = []) .origin
  pure origin

/-- The hostname without its brackets. -/
def bareHostname (hostname : Text) : Text :=
  let front := if hostname.head? = some '[' then hostname.drop 1 else hostname
  if front.getLast? = some ']' then front.dropLast else front

/-- The port of an origin. -/
def ParsedUrl.portNumber (parsed : ParsedUrl) : Nat := if parsed.port = [] then 443 else numberText 10 parsed.port

/-- The checks of the address that an ingress listens at. -/
def checkListener (scope : Text) (ip : IngressAddress) : Except IngressError Unit := do
  let loopback := inNetwork ip "127.0.0.0/8".toList || inNetwork ip "::1/128".toList
  demand (scope = "local".toList → loopback = true) .localAddress
  demand (scope = "lan".toList → privateListener ip = true) .lanAddress
  demand (scope = "internet".toList → loopback = false) .internetAddress
  demand (ip.value = 0 ∨ ["0.0.0.0/8", "169.254.0.0/16", "fe80::/10", "224.0.0.0/4", "240.0.0.0/4", "ff00::/8",
    "::ffff:0:0/96"].all fun network => !inNetwork ip network.toList) .unicast

/-- The loop over the client networks, with the identities so far. -/
def checkNetworks : List (AddressFamily × Nat × Nat) → List (Option Text) → Except IngressError (List Text)
  | _, [] => .ok []
  | identities, entry :: rest => do
    let value ← obtain? entry .networkLiteral
    let network ← networkValue value
    demand (privateNetwork network = true) .networkPrivate
    let identity := (network.family, network.value, network.length)
    demand (identities.contains identity = false) .networkRepeated
    let later ← checkNetworks (identity :: identities) rest
    pure (value :: later)

/-- The client networks of a review. -/
def ingressNetworks (scope : Text) (ip : IngressAddress) (field : RecordField (List (Option Text))) :
    Except IngressError (Option (List Text)) :=
  if scope = "lan".toList then do
    let entries ← obtain? field.toOption .networkCount
    demand (1 ≤ entries.length ∧ entries.length ≤ 32) .networkCount
    let networks ← checkNetworks [] entries
    demand (networks.any (inNetwork ip) = true) .networkMissing
    pure (some networks)
  else do
    demand (field = .absent) .networkScope
    pure none

/-- The automatic LAN HTTPS of a review. -/
def ingressLanHttps (url : UrlParser) (scope provider address origin : Text) (field : RecordField LanHttpsInput) :
    Except IngressError (Option LanHttpsReview) :=
  if provider = "automatic".toList then do
    let lan ← obtain? field.toOption (.record "automatic LAN HTTPS")
    demand (lan.plain = true) (.record "automatic LAN HTTPS")
    demand (scope = "lan".toList ∧ lan.format = some 1) .lanSettings
    let termsAccepted ← obtain? lan.termsAccepted .lanSettings
    let issuer ← obtain? lan.issuerId .lanSettings
    demand (issuerId issuer = true) .lanSettings
    let checked ← validateLanHttpsProvider url lan.provider
    demand (checked.publicOrigin = origin ∧ checked.address = address ∧
      (checked.provider = "akebi-local-acme".toList → termsAccepted = true)) .lanTerms
    pure (some ⟨checked, issuer, termsAccepted⟩)
  else do
    demand (field = .absent) .lanPolicy
    pure none

def validateServerIngressReview (url : UrlParser) (input : IngressInput) : Except IngressError IngressReview := do
  demand (input.plain = true) (.record "ingress review")
  demand (input.format = some 1) .format
  let mode ← obtain? input.mode (.text "ingress.mode")
  let scope ← obtain? input.accessScope (.text "ingress.accessScope")
  let provider ← obtain? input.tlsProvider (.text "ingress.tlsProvider")
  let rawOrigin ← obtain? input.publicOrigin (.text "ingress.publicOrigin")
  let origin ← ingressOrigin url rawOrigin
  demand (scope = "local".toList ∨ scope = "lan".toList ∨ scope = "internet".toList) .scope
  if mode = "cloudflare".toList then do
    demand (scope = "internet".toList ∧ provider = "cloudflare".toList ∧ input.listenAddress = .absent ∧
      input.allowedNetworks = .absent ∧ input.lanHttps = .absent) .cloudflare
    pure ⟨mode, origin.origin, scope, provider, none, none, none⟩
  else do
    demand (mode = "standalone".toList ∧ (provider = "custom".toList ∨ provider = "automatic".toList)) .provider
    let hostname := bareHostname origin.hostname
    demand (isIP hostname ≠ 0 ∨ hostname.length ≤ 253 ∧ (splitText '.' hostname).all dnsLabel = true) .hostname
    let address ← obtain? input.listenAddress.toOption (.text "ingress.listenAddress")
    let ip ← addressValue address
    checkListener scope ip
    demand (¬ (3100 ≤ origin.portNumber ∧ origin.portNumber ≤ 3199)) .port
    let networks ← ingressNetworks scope ip input.allowedNetworks
    let lanHttps ← ingressLanHttps url scope provider address origin.origin input.lanHttps
    pure ⟨mode, origin.origin, scope, provider, some address, lanHttps, networks⟩

end Review

section Interfaces

/-- An address of an interface. -/
structure InterfaceEntry where
  internal : Bool
  address : Option Text
  cidr : Option Text
deriving DecidableEq, Repr

/-- The interfaces of a host with their addresses; an entry may be nothing, and the addresses may be no list. -/
abbrev InterfaceInventory : Type := List (Text × Option (List (Option InterfaceEntry)))

/-- An address that is offered, with its network. -/
structure InterfaceChoice where
  interfaceName : Text
  address : Text
  network : Text
deriving DecidableEq, Repr

/-- The base of a network as text. -/
def networkText (family : AddressFamily) (value : Nat) : Text :=
  match family with
  | .four => joinText '.' ([24, 16, 8, 0].map fun shift => toText 10 (value >>> shift &&& 255))
  | .six => ipv6Hostname ([112, 96, 80, 64, 48, 32, 16, 0].map fun shift => value >>> shift &&& 65535)

/-- The shortest prefix that stays in the private networks. -/
def shortestPrefix (family : AddressFamily) (address : Text) : Nat :=
  match family with
  | .four =>
    if "10.".toList <+: address then 8
    else if "172.".toList <+: address then 12
    else 16
  | .six => 7

/-- The number of an address for its network. -/
def choiceValue (family : AddressFamily) (checked : PrivateAddress) : Nat :=
  match family with
  | .four => (splitText '.' checked.address).foldl (fun n v => n <<< 8 ||| numberText 10 v) 0
  | .six => numberText 16 (checked.label.filter fun c => c ≠ '-')

/-- What an entry offers; the numbers of texts are those of `Number` where they are safe integers. -/
def interfaceChoice (safeInteger : Text → Option Nat) (name : Text) (entry : InterfaceEntry) : Option InterfaceChoice :=
  if entry.internal = true ∨ 64 < utf16Length name then none
  else do
    let value ← entry.address
    let checked ← (privateAddress value).toOption
    let family := if isIP checked.address = 4 then AddressFamily.four else .six
    let rawPrefix ← (splitText '/' (entry.cidr.getD []))[1]?
    let length ← safeInteger rawPrefix
    if 1 ≤ length ∧ length ≤ family.bits ∧ shortestPrefix family checked.address ≤ length then
      let cleared := (choiceValue family checked >>> (family.bits - length)) <<< (family.bits - length)
      pure ⟨name, checked.address, networkText family cleared ++ '/' :: toText 10 length⟩
    else none

/-- The loop of `lanHttpsInterfaceChoices`: no address twice, and at most 32. -/
def collectChoices : List InterfaceChoice → List InterfaceChoice → List InterfaceChoice
  | result, [] => result
  | result, choice :: rest =>
    let result := if result.any fun other => other.address = choice.address then result else result ++ [choice]
    if 32 ≤ result.length then result else collectChoices result rest

def lanHttpsInterfaceChoices (safeInteger : Text → Option Nat) (interfaces : InterfaceInventory) :
    List InterfaceChoice :=
  collectChoices [] ((interfaces.take 64).flatMap fun entry =>
    ((entry.2.getD []).take 64).filterMap fun address => address.bind (interfaceChoice safeInteger entry.1))

end Interfaces

end LatexRenderer
