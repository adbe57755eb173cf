import LatexRenderer.Machine.Url
import LatexRenderer.Model.Deploy.LanAddress
import LatexRenderer.Machine.Run
import LatexRenderer.Model.Maps

/-! # Where a login returns to

After a login the browser is sent back to a path of this site. A value that begins with one slash and has no
backslash and no control character is parsed as a URL of a site that does not exist, and its path, query and fragment
are taken from there.
-/

namespace LatexRenderer

open Machine

def hasControlCharacters (value : Text) : Bool := value.any fun c => c.toNat ≤ 0x1f || c.toNat = 0x7f

/-- The origin of `https://return.invalid`. -/
def returnInvalid : Text := "https://return.invalid".toList

/-- The checks of `safeReturnTo` on the value as it stands. -/
def refusesReturnTo (value : Text) : Bool :=
  2048 < utf16Length value || !(['/'].isPrefixOf value) || ['/', '/'].isPrefixOf value || '\\' ∈ value ||
    hasControlCharacters value

/-- The page that a login returns to by default. -/
def defaultReturnTo : Text := "/app/".toList

/-- `safeReturnTo`; a lone surrogate is U+FFFD, as it is for the URL parser. Every other kind of reference that
`new URL` may be given is one that the checks have refused. -/
def safeReturnTo (value : Text) : Text :=
  if refusesReturnTo value then defaultReturnTo
  else match resolveUrl (fun _ _ => none) returnInvalid value with
    | some url => if url.origin ≠ returnInvalid then defaultReturnTo else url.target.text
    | none => defaultReturnTo

end LatexRenderer

/-! ## OIDC logins that are under way

`begin` counts the start of a flow for its client address, waits for the metadata of the provider and stores the flow
under a fresh state value; `callback` takes the flow out. Calls suspend at the metadata, so others run in between, and
every reading of the clock is a value of its own.
-/

namespace LatexRenderer

open Machine

def flowLifetimeMs : Int := 300000

def flowStartWindowMs : Int := 900000

def maximumFlowStartsPerClient : Nat := 20

def maximumFlowStartRateKeys : Nat := 10000

/-- The number of stored flows at which `pruneFlows` refuses. -/
def maximumPendingFlows : Nat := 1000

structure OidcFlow where
  nonce : Text
  verifier : Text
  returnTo : Text
  expiresAt : Int
deriving DecidableEq

structure OidcFlowStartWindow where
  windowStartedAt : Int
  count : Nat
deriving DecidableEq

/-- A callback that was accepted, with the time it read. -/
structure AcceptedCallback where
  state : Text
  cookie : Text
  now : Int
deriving DecidableEq

/-- `OidcClient`: its maps in the order of their keys, and the `begin` calls that wait for the metadata. A digest
stands for the text it is taken of. What was issued, accepted and started is kept for the specification. -/
structure OidcState where
  flows : List (Text × OidcFlow)
  flowStartWindows : List (Text × OidcFlowStartWindow)
  activityDeadline : Int
  waiting : List Text
  issued : List (Text × Int)
  accepted : List AcceptedCallback
  starts : List Text
deriving DecidableEq

/-- A new client. -/
def OidcState.new : OidcState where
  flows := []
  flowStartWindows := []
  activityDeadline := 0
  waiting := []
  issued := []
  accepted := []
  starts := []

/-- White space and line terminators, as `trim` takes them. -/
def trimSpace (c : Char) : Bool :=
  (0x09 ≤ c.toNat && c.toNat ≤ 0x0d) || c.toNat = 0x20 || c.toNat = 0xa0 || c.toNat = 0x1680 ||
    (0x2000 ≤ c.toNat && c.toNat ≤ 0x200a) || c.toNat = 0x2028 || c.toNat = 0x2029 || c.toNat = 0x202f ||
    c.toNat = 0x205f || c.toNat = 0x3000 || c.toNat = 0xfeff

def trimText (text : Text) : Text := ((text.dropWhile trimSpace).reverse.dropWhile trimSpace).reverse

/-- The rate key of a client address. -/
def rateKey (clientAddress : Text) : Text :=
  if trimText clientAddress = [] then "unavailable".toList else trimText clientAddress

/-- The loop of `pruneFlows`. -/
def pruneFlows (now : Int) (flows : List (Text × OidcFlow)) : List (Text × OidcFlow) :=
  flows.filter fun entry => decide (now < entry.2.expiresAt)

/-- The loop of `consumeFlowStart`. -/
def pruneWindows (now : Int) (windows : List (Text × OidcFlowStartWindow)) : List (Text × OidcFlowStartWindow) :=
  windows.filter fun entry => decide (now < entry.2.windowStartedAt + flowStartWindowMs)

/-- The windows without the oldest one when the table is full. -/
def makeRoom (windows : List (Text × OidcFlowStartWindow)) : List (Text × OidcFlowStartWindow) :=
  if maximumFlowStartRateKeys ≤ windows.length then windows.tail else windows

/-- `consumeFlowStart`, and whether it lets the flow start. -/
def consumeFlowStart (now : Int) (clientAddress : Text) (s : OidcState) : OidcState × Bool :=
  let windows := pruneWindows now s.flowStartWindows
  let key := rateKey clientAddress
  match mapGet? key windows with
  | some window =>
    if maximumFlowStartsPerClient ≤ window.count then ({ s with flowStartWindows := windows }, false)
    else ({ s with flowStartWindows := mapSet key { window with count := window.count + 1 } windows }, true)
  | none =>
    ({ s with
        flowStartWindows := mapSet key { windowStartedAt := now, count := 1 } (makeRoom windows)
        activityDeadline := max s.activityDeadline (now + flowStartWindowMs) }, true)

/-- `begin`, up to the metadata. -/
def beginFlow (pruned started : Int) (returnTo clientAddress : Text) (s : OidcState) : OidcState :=
  let s := { s with flows := pruneFlows pruned s.flows }
  if maximumPendingFlows ≤ s.flows.length then s
  else
    let counted := consumeFlowStart started clientAddress s
    if counted.2 then
      { counted.1 with
        waiting := returnTo :: counted.1.waiting
        starts := rateKey clientAddress :: counted.1.starts }
    else counted.1

/-- The random values of a flow. -/
structure FlowSecrets where
  state : Text
  nonce : Text
  verifier : Text
deriving DecidableEq

/-- `begin`, from the metadata on. -/
def storeFlow (returnTo : Text) (pruned now : Int) (secrets : FlowSecrets) (s : OidcState) : OidcState :=
  let s := { s with flows := pruneFlows pruned s.flows, waiting := s.waiting.erase returnTo }
  if maximumPendingFlows ≤ s.flows.length then s
  else
    let expiresAt := now + flowLifetimeMs
    { s with
      activityDeadline := max s.activityDeadline expiresAt
      flows := mapSet secrets.state
        { nonce := secrets.nonce, verifier := secrets.verifier, returnTo := safeReturnTo returnTo, expiresAt } s.flows
      issued := (secrets.state, expiresAt) :: s.issued }

/-- `callback`, up to the metadata: the flow is taken out, and accepted while it is live. -/
def takeFlow (now : Int) (state stateCookie : Text) (s : OidcState) : OidcState :=
  if state = stateCookie ∧ state ≠ [] then
    let taken := { s with flows := mapDelete state s.flows }
    match mapGet? state s.flows with
    | some flow =>
      if flow.expiresAt ≤ now then taken
      else { taken with accepted := { state, cookie := stateCookie, now } :: s.accepted }
    | none => taken
  else s

/-- What happens to a client: a call begins, goes on with the metadata or without it, or calls back. -/
inductive OidcEvent where
  | begin (pruned started : Int) (returnTo clientAddress : Text)
  | metadata (returnTo : Text) (pruned now : Int) (secrets : FlowSecrets)
  | metadataFailed (returnTo : Text)
  | callback (now : Int) (state stateCookie : Text)
deriving DecidableEq

/-- A step of the client. A state value is 256 random bits and is never drawn twice. -/
def oidcStep (s : OidcState) : OidcEvent → Option OidcState
  | .begin pruned started returnTo clientAddress => some (beginFlow pruned started returnTo clientAddress s)
  | .metadata returnTo pruned now secrets =>
    if returnTo ∈ s.waiting ∧ secrets.state ∉ s.issued.map Prod.fst then some (storeFlow returnTo pruned now secrets s)
    else none
  | .metadataFailed returnTo =>
    if returnTo ∈ s.waiting then some { s with waiting := s.waiting.erase returnTo } else none
  | .callback now state stateCookie => some (takeFlow now state stateCookie s)

/-- The client. -/
def oidcMachine : LabeledMachine OidcState OidcEvent := ofPartial (fun s => s = OidcState.new) oidcStep

def OidcState.idleBlockedUntil (s : OidcState) (now : Int) : Int :=
  if now < s.activityDeadline then s.activityDeadline else 0

end LatexRenderer
