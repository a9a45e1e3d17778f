import Mathlib.Data.Rat.Defs
import TerminalCanvas.Collab.Session

/-! # Shared workspaces

What the host publishes of its workspace, what the participants of a session send each
other, and the limits both are checked against. -/

namespace TerminalCanvas.Collab.Sharing

def maxSharedPanels : Nat := 256

def maxSharedGuests : Nat := 128

def maxSharedControls : Nat := 512

def maxControlQueue : Nat := 128

def maxSharedTextBytes : Nat := 8 * 1024 * 1024

def maxInputEvents : Nat := 1024

def maxInputTextBytes : Nat := 256 * 1024

def maxCollabLabelBytes : Nat := 512

def maxControlReasonBytes : Nat := 4 * 1024

/-! ## Records -/

inductive F32 where
  | finite (value : ℚ)
  | nonFinite
deriving DecidableEq

inductive PanelShareScope where
  | isPrivate
  | visibleOnly
  | visibleAndHistory
  | controllable
deriving DecidableEq, Repr

def PanelShareScope.allowsControl (scope : PanelShareScope) : Bool := scope = .controllable

structure TerminalControlState where
  terminalId : Uuid
  controller : Option GuestId
  controllerName : Option String
  queue : List GuestId
deriving DecidableEq, Repr

structure SharedTerminalTarget where
  leafId : Uuid
  runtimeSessionId : Option Uuid
deriving DecidableEq, Repr

structure SharedPanelSnapshot where
  inputTarget : Option SharedTerminalTarget
  panelId : Uuid
  title : String
  position : F32 × F32
  size : F32 × F32
  color : UInt8 × UInt8 × UInt8
  zIndex : UInt32
  focused : Bool
  minimized : Bool
  alive : Bool
  previewLabel : String
  shareScope : PanelShareScope
  visibleText : String
  historyText : String
  controller : Option GuestId
  controllerName : Option String
  queueLen : Nat
deriving DecidableEq

structure SharedWorkspaceSnapshot where
  workspaceId : Uuid
  workspaceName : String
  generatedAt : DateTime
  guests : List GuestPresence
  terminalControls : List TerminalControlState
  panels : List SharedPanelSnapshot
deriving DecidableEq

structure ControlRequest where
  terminalId : Uuid
  guestId : GuestId
  displayName : String
  requestedAt : DateTime
deriving DecidableEq, Repr

structure ControlGrant where
  terminalId : Uuid
  guestId : GuestId
  grantedAt : DateTime
deriving DecidableEq, Repr

structure ControlRevoke where
  terminalId : Uuid
  guestId : Option GuestId
  reason : String
deriving DecidableEq, Repr

inductive TerminalInputEvent where
  | text (text : String)
  | paste (text : String)
  /-- A key with its modifiers, by its place among the keys. -/
  | key (key : Nat) (ctrl alt shift command : Bool)
  | scroll (delta : F32)
deriving DecidableEq

structure GuestTerminalInput where
  target : Option SharedTerminalTarget
  terminalId : Uuid
  events : List TerminalInputEvent
deriving DecidableEq

inductive SessionPayload where
  | workspaceSnapshot (snapshot : SharedWorkspaceSnapshot)
  | controlRequest (request : ControlRequest)
  | controlGrant (grant : ControlGrant)
  | controlRevoke (revoke : ControlRevoke)
  | guestInput (input : GuestTerminalInput)
  /-- The host changed the traffic key. Sent under the old one. -/
  | sessionRekeyed (newSessionSecret : String)
deriving DecidableEq

/-! ## Limits of a snapshot -/

/-- Finite and at most a million either way. -/
def F32.inCanvas : F32 → Bool
  | .finite value => -1000000 ≤ value && value ≤ 1000000
  | .nonFinite => false

def F32.isNegative : F32 → Bool
  | .finite value => value < 0
  | .nonFinite => false

def labelFits (label : String) : Bool := label.utf8ByteSize ≤ maxCollabLabelBytes

def panelFits (panel : SharedPanelSnapshot) : Bool :=
  labelFits panel.title && labelFits panel.previewLabel && panel.controllerName.all labelFits &&
    panel.position.1.inCanvas && panel.position.2.inCanvas &&
    panel.size.1.inCanvas && panel.size.2.inCanvas &&
    !panel.size.1.isNegative && !panel.size.2.isNegative

/-- The loop over the panels: their identifiers so far and the bytes of their texts. -/
def validatePanels : (seen : List Uuid) → (textBytes : Nat) → List SharedPanelSnapshot →
    Except String Nat
  | _, textBytes, [] => .ok textBytes
  | seen, textBytes, panel :: panels =>
      if panel.panelId ∈ seen ∨ panelFits panel = false then
        .error "Collaboration snapshot contains an invalid panel"
      else
        match (checkedAddU64 textBytes panel.visibleText.utf8ByteSize).bind
            (checkedAddU64 · panel.historyText.utf8ByteSize) with
        | none => .error "Collaboration snapshot text size overflow"
        | some textBytes => validatePanels (panel.panelId :: seen) textBytes panels

def guestFits (guest : GuestPresence) : Bool :=
  labelFits guest.displayName && !guest.displayName.toList.any isControl

def controlFits (control : TerminalControlState) : Bool :=
  control.queue.length ≤ maxControlQueue && control.controllerName.all labelFits

def validateSnapshotLimits (snapshot : SharedWorkspaceSnapshot) : Except String Unit :=
  if labelFits snapshot.workspaceName = false ∨ maxSharedPanels < snapshot.panels.length ∨
      maxSharedGuests < snapshot.guests.length ∨
      maxSharedControls < snapshot.terminalControls.length then
    .error "Collaboration snapshot exceeds structural limits"
  else
    match validatePanels [] 0 snapshot.panels with
    | .error error => .error error
    | .ok textBytes =>
        if maxSharedTextBytes < textBytes ∨ snapshot.guests.all guestFits = false ∨
            snapshot.terminalControls.all controlFits = false then
          .error "Collaboration snapshot exceeds content limits"
        else
          .ok ()

/-! ## Limits of a payload -/

/-- The loop over the events: the bytes of their texts. -/
def validateInputEvents : (textBytes : Nat) → List TerminalInputEvent → Except String Nat
  | textBytes, [] => .ok textBytes
  | textBytes, .text text :: events | textBytes, .paste text :: events =>
      match checkedAddU64 textBytes text.utf8ByteSize with
      | none => .error "Collaboration input size overflow"
      | some textBytes => validateInputEvents textBytes events
  | _, .scroll .nonFinite :: _ => .error "Collaboration input contains an invalid scroll"
  | textBytes, _ :: events => validateInputEvents textBytes events

/-- `decodeKey` is the unpadded Base64 of a traffic key. -/
def validatePayloadLimits (decodeKey : String → Option Bytes) :
    SessionPayload → Except String Unit
  | .workspaceSnapshot snapshot => validateSnapshotLimits snapshot
  | .controlRequest request =>
      if request.displayName.isEmpty ∨ labelFits request.displayName = false ∨
          request.displayName.toList.any isControl = true then
        .error "Collaboration control request has an invalid name"
      else
        .ok ()
  | .controlRevoke revoke =>
      if maxControlReasonBytes < revoke.reason.utf8ByteSize then
        .error "Collaboration control reason is too large"
      else
        .ok ()
  | .guestInput input =>
      if maxInputEvents < input.events.length then
        .error "Collaboration input contains too many events"
      else
        match validateInputEvents 0 input.events with
        | .error error => .error error
        | .ok textBytes =>
            if maxInputTextBytes < textBytes then
              .error "Collaboration input text is too large"
            else
              .ok ()
  | .sessionRekeyed newSessionSecret =>
      if (decodeKey newSessionSecret).any (·.length = 32) then .ok ()
      else .error "Collaboration rekey contains an invalid traffic key"
  | .controlGrant _ => .ok ()

end TerminalCanvas.Collab.Sharing
