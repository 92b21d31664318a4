import PacketStack.Layer

/-!
Packets: layers, each around the ones inside, read from and written to bytes.

A packet is a list of at least one layer, the outermost first; `toList` is that view. Reading
follows what each layer tells about its content and ends in bytes without a known meaning. Writing
goes from the inside out, since lengths, types and checksums depend on what a layer carries. Sizes
are kept in 32 bits.
-/

namespace PacketStack

inductive Packet where
  | single (layer : Layer)
  | over (layer : Layer) (inner : Packet)
  deriving DecidableEq

namespace Packet

def layer : Packet → Layer
  | .single layer => layer
  | .over layer _ => layer

def kind (packet : Packet) : Kind := packet.layer.kind

def inner? : Packet → Option Packet
  | .single _ => none
  | .over _ inner => some inner

/-- The layers, the outermost first. -/
def toList : Packet → List Layer
  | .single layer => [layer]
  | .over layer inner => layer :: inner.toList

def ofLayer (layer : Layer) : Option Packet → Packet
  | none => .single layer
  | some inner => .over layer inner

def ofList (layer : Layer) : List Layer → Packet
  | [] => .single layer
  | next :: rest => .over layer (ofList next rest)

def raw (payload : Bytes) : Packet := .single (.raw ⟨payload⟩)

@[simp] theorem toList_ofList (layer : Layer) (rest : List Layer) :
    (ofList layer rest).toList = layer :: rest := by
  induction rest generalizing layer with
  | nil => rfl
  | cons next rest ih => simp [ofList, toList, ih]

@[simp] theorem toList_ne_nil (packet : Packet) : packet.toList ≠ [] := by
  cases packet <;> simp [toList]

def totalSize : Packet → Nat
  | .single layer => layer.headerSize + layer.trailerSize 0
  | .over layer inner =>
      layer.headerSize + inner.totalSize + layer.trailerSize inner.totalSize

def trailerSize (packet : Packet) : Nat :=
  packet.layer.trailerSize ((packet.inner?.map totalSize).getD 0)

/-- The packet and every packet inside. -/
def nodes : Packet → List Packet
  | .single layer => [.single layer]
  | .over layer inner => .over layer inner :: inner.nodes

def narrow (size : Nat) : Outcome Nat := if size < 0x100000000 then .ok size else .outOfBounds

def frame (layer : Layer) (inner : Option Kind) (addresses : Option (IpAddress × IpAddress))
    (body : Bytes) : Outcome Bytes := do
  let trailerSize := layer.trailerSize body.length
  let _ ← narrow (layer.headerSize + body.length + trailerSize)
  let blank := List.replicate layer.headerSize 0 ++ body ++ List.replicate trailerSize 0
  let (outcome, bytes) := Write.into blank (layer.write inner addresses)
  outcome.map fun _ => bytes

theorem narrow_of_lt {size : Nat} (small : size < 0x100000000) : narrow size = .ok size := if_pos small

theorem narrow_of_le {size : Nat} (large : 0x100000000 ≤ size) : narrow size = .outOfBounds :=
  if_neg (Nat.not_lt.mpr large)

section

variable {layer : Layer} {inner : Option Kind} {addresses : Option (IpAddress × IpAddress)}
variable {body : Bytes}

theorem frame_of_lt
    (small : layer.headerSize + body.length + layer.trailerSize body.length < 0x100000000) :
    frame layer inner addresses body =
      let written := Write.into (List.replicate layer.headerSize 0 ++ body ++
        List.replicate (layer.trailerSize body.length) 0) (layer.write inner addresses)
      written.1.map fun _ => written.2 := by
  unfold frame
  simp only [narrow_of_lt small]
  rfl

theorem frame_of_le
    (large : 0x100000000 ≤ layer.headerSize + body.length + layer.trailerSize body.length) :
    frame layer inner addresses body = .outOfBounds := by
  unfold frame
  simp only [narrow_of_le large]
  rfl

end

/-- The bytes of a packet inside a layer with the given addresses. -/
def serializeWithin (addresses : Option (IpAddress × IpAddress)) : Packet → Outcome Bytes
  | .single layer => frame layer none addresses []
  | .over layer inner => do
      frame layer (some inner.kind) addresses (← inner.serializeWithin layer.addresses?)

def serialize (packet : Packet) : Outcome Bytes := packet.serializeWithin none

/-- Reads a layer of a kind with everything it carries. -/
def parse (kind : Kind) (bytes : Bytes) : Outcome Packet :=
  match _read : Layer.decode kind bytes with
  | .error failure => .error failure.asMalformed
  | .ok ⟨layer, payload, next⟩ =>
      if bytes.length < layer.headerSize then
        .malformed (.headerExceedsBuffer kind layer.headerSize bytes.length)
      else if payload.isEmpty then .ok (.single layer)
      else match next with
        | none => .ok (.over layer (raw payload))
        | some inner => (parse inner payload).map (.over layer)
termination_by bytes.length
decreasing_by exact Layer.decode_payload_lt _read rfl

/-- Reads the header of a kind alone. -/
def reinterpret (kind : Kind) (bytes : Bytes) : Outcome Layer :=
  match Layer.decode kind bytes with
  | .error failure => .error failure.asMalformed
  | .ok decoded => .ok decoded.header

/-- Reads a captured frame. One of an unknown link layer has no known meaning. -/
def ofLinkBytes (link : LinkType) (bytes : Bytes) : Outcome Packet :=
  let kind? := if link = .raw then
      match bytes.head?.map (·.toNat / 16) with
      | some 4 => some Kind.ipv4
      | some 6 => some Kind.ipv6
      | _ => none
    else link.kind?
  match kind? with
  | some kind => parse kind bytes
  | none => .ok (raw bytes)

/-- The packet that starts with the first layer of a kind. -/
def find? (kind : Kind) : Packet → Option Packet
  | .single layer => if layer.kind = kind then some (.single layer) else none
  | .over layer inner =>
      if layer.kind = kind then some (.over layer inner) else inner.find? kind

def findLayer? (kind : Kind) (packet : Packet) : Option Layer := (packet.find? kind).map layer

def setLayer (layer : Layer) : Packet → Packet
  | .single _ => .single layer
  | .over _ inner => .over layer inner

/-- Changes the packet that starts with the first layer of a kind, if there is one. -/
def modify? (kind : Kind) (change : Packet → Packet) : Packet → Option Packet
  | .single layer => if layer.kind = kind then some (change (.single layer)) else none
  | .over layer inner =>
      if layer.kind = kind then some (change (.over layer inner))
      else (inner.modify? kind change).map (.over layer)

def setInner (packet inner : Packet) : Packet := .over packet.layer inner

def push : Packet → Packet → Packet
  | .single layer, more => .over layer more
  | .over layer inner, more => .over layer (inner.push more)

instance : HDiv Packet Layer Packet := ⟨fun packet layer => packet.push (.single layer)⟩

instance : HDiv Layer Layer Packet := ⟨fun outer layer => Packet.single outer / layer⟩

def release (packet : Packet) : Option Packet × Packet := (packet.inner?, .single packet.layer)

def takeInner (kind : Kind) : Packet → Option Packet × Packet
  | .single layer => (none, .single layer)
  | .over layer inner =>
      if inner.kind = kind then (some inner, .single layer)
      else
        let (taken, rest) := inner.takeInner kind
        (taken, .over layer rest)

def addresses? (packet : Packet) : Option (IpAddress × IpAddress) :=
  packet.toList.findSome? Layer.addresses?

end Packet

end PacketStack
