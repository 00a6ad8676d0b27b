import Superiority.Wire.Raw

/-!
# Frames of the classic RPC

Two bytes that say how long the header is, the header, and the body. The header is a message of
which eight fields are modelled; every other field, and a modelled number under another wire type,
goes into the header's unknown bytes, which are appended when the header is written.

* **`decode_encode`** – a written header is read back, with its unknown fields built anew.
* **`roundTrips_iff`** – a frame is read back as it was written exactly when the unknown bytes use
  the shortest varints; what was read before is always read back; and a frame that is shorter or
  longer than it says is refused.
-/

namespace Superiority.Rpc

open Wire (Field Value Message itemsOf Spells anyVarint itemsOf_eq_iff ofFields_of_spells
  ofFields_eq_iff spells_ofFields)

/-! ## Numbers of the header's fields -/

def serviceId : UInt32 := 1
def methodId : UInt32 := 2
def token : UInt32 := 3
def routingId : UInt32 := 4
def size : UInt32 := 5
def objectId : UInt32 := 6
def isResponse : UInt32 := 9
def requestTrace : UInt32 := 12

structure Header where
  serviceId : UInt32
  methodId : UInt32
  token : UInt32
  routingId : Option UInt32
  size : Option UInt32
  objectId : Option UInt64
  isResponse : Option Bool
  requestTrace : Option (List UInt8)
  unknown : List UInt8
  deriving DecidableEq

def classicError (message : String) : Error := .classicWire message

/-- `u32::try_from`. -/
def narrow (value : UInt64) (name : String) : Except Error UInt32 :=
  if value.toNat < 2 ^ 32 then .ok value.toUInt32
  else .error (classicError s!"classic header {name} exceeds uint32")

namespace Header

def default_ : Header := ⟨0, 0, 0, none, none, none, none, none, []⟩

/-! ## Reading -/

/-- The loop's variables. -/
structure Decoding where
  header : Header
  hasService : Bool
  hasMethod : Bool
  hasToken : Bool
  unknown : Message

def Decoding.start : Decoding := ⟨default_, false, false, false, .new⟩

/-- One round of the loop, for a field that was read. -/
def Decoding.push (d : Decoding) (item : Field) : Except Error Decoding :=
  let unmodelled : Except Error Decoding := .ok { d with unknown := d.unknown.field item }
  match item.value with
  | .varint value =>
    if item.number = Rpc.serviceId then do
      let id ← narrow value "service ID"
      return { d with header := { d.header with serviceId := id }, hasService := true }
    else if item.number = Rpc.methodId then do
      let id ← narrow value "method ID"
      return { d with header := { d.header with methodId := id }, hasMethod := true }
    else if item.number = Rpc.token then do
      let token ← narrow value "token"
      return { d with header := { d.header with token := token }, hasToken := true }
    else if item.number = Rpc.routingId then do
      let id ← narrow value "routing ID"
      return { d with header := { d.header with routingId := some id } }
    else if item.number = Rpc.size then do
      let size ← narrow value "body size"
      return { d with header := { d.header with size := some size } }
    else if item.number = Rpc.objectId then
      .ok { d with header := { d.header with objectId := some value } }
    else if item.number = Rpc.isResponse then
      .ok { d with header := { d.header with isResponse := some (value ≠ 0) } }
    else unmodelled
  | .bytes value =>
    if item.number = Rpc.requestTrace then
      .ok { d with header := { d.header with requestTrace := some value } }
    else unmodelled
  | _ => unmodelled

def Decoding.pushItem (d : Decoding) (item : Except Error Field) : Except Error Decoding := do
  d.push (← item)

/-- The names of the required fields that were not there. -/
def Decoding.missing (d : Decoding) : List String :=
  [(d.hasService, "service_id"), (d.hasMethod, "method_id"), (d.hasToken, "token")].filterMap
    fun entry => if entry.1 then none else some entry.2

/-- `{missing:?}`. -/
def listed (names : List String) : String :=
  "[" ++ ", ".intercalate (names.map fun name => "\"" ++ name ++ "\"") ++ "]"

def Decoding.finish (d : Decoding) : Except Error Header :=
  if d.missing = [] then .ok { d.header with unknown := d.unknown.bytes }
  else .error (classicError
    ("classic header is missing required fields " ++ listed d.missing))

def decode (data : List UInt8) : Except Error Header := do
  let d ← (itemsOf data).foldlM Decoding.pushItem .start
  d.finish

/-! ## Writing -/

/-- A field that is written if it is there. -/
def optional {α : Type} (value : Option α) (write : α → Message → Message) (message : Message) :
    Message :=
  match value with
  | some value => write value message
  | none => message

def encode (header : Header) : List UInt8 :=
  let message := Message.new
    |>.varint Rpc.serviceId header.serviceId.toUInt64
    |>.varint Rpc.methodId header.methodId.toUInt64
    |>.varint Rpc.token header.token.toUInt64
  let message := optional header.routingId
    (fun id message => message.varint Rpc.routingId id.toUInt64) message
  let message := optional header.size
    (fun size message => message.varint Rpc.size size.toUInt64) message
  let message := optional header.objectId
    (fun id message => message.varint Rpc.objectId id) message
  let message := optional header.isResponse
    (fun answers message => message.varint Rpc.isResponse answers.toUInt64) message
  let message := optional header.requestTrace
    (fun trace message => message.bytesField Rpc.requestTrace trace) message
  message.bytes ++ header.unknown

end Header

structure Frame where
  header : Header
  body : List UInt8
  deriving DecidableEq

namespace Frame

def decode (data : List UInt8) : Except Error Frame := do
  match getRange data 0 2 with
  | none => .error (classicError "RPC frame is shorter than its two-byte length prefix")
  | some lengthPrefix =>
    let headerSize := bigEndian lengthPrefix
    match getRange data 2 (2 + headerSize) with
    | none => .error (classicError
        s!"RPC header length {headerSize} exceeds {data.length - 2} available bytes")
    | some headerBytes =>
      let header ← Header.decode headerBytes
      let body := data.drop (2 + headerSize)
      if header.size.any (·.toNat ≠ body.length) then
        throw (classicError
          s!"header body size {header.size.getD 0} does not match {body.length} bytes")
      return ⟨header, body⟩

def encode (header : Header) (body : List UInt8) : Except Error (List UInt8) :=
  if 2 ^ 32 ≤ body.length then
    .error (classicError "RPC body exceeds the uint32 size field")
  else
    let size := UInt32.ofNat body.length
    if header.size.any (· ≠ size) then
      .error (classicError
        s!"header body size {header.size.getD 0} does not match {body.length} bytes")
    else
      let encodedHeader := { header with size := some size }.encode
      if 2 ^ 16 ≤ encodedHeader.length then
        .error (classicError "encoded RPC header exceeds uint16 length")
      else .ok (toBigEndian 2 encodedHeader.length ++ encodedHeader ++ body)

end Frame

/-! ## Modelled fields -/

/-- The number and the wire type of a field that the header models. -/
def modelled (field : Field) : Bool :=
  match field.value with
  | .varint _ => field.number ∈ [serviceId, methodId, token, routingId, size, objectId, isResponse]
  | .bytes _ => field.number = requestTrace
  | _ => false

namespace Header

theorem push_unmodelled {item : Field} (h : modelled item = false) (d : Decoding) :
    d.push item = .ok { d with unknown := d.unknown.field item } := by
  obtain ⟨number, value⟩ := item
  cases value with
  | varint value =>
    simp only [modelled, List.mem_cons, List.not_mem_nil, decide_eq_false_iff_not, not_or] at h
    simp [Decoding.push, h]
  | bytes value =>
    simp only [modelled, decide_eq_false_iff_not] at h
    simp [Decoding.push, h]
  | fixed64 value => rfl
  | fixed32 value => rfl

/-- A round that narrows its number. -/
theorem unknown_narrow {value : UInt64} {name : String} {f : UInt32 → Decoding} {d d' : Decoding}
    (hf : ∀ n, (f n).unknown = d.unknown)
    (h : (do return f (← narrow value name) : Except Error Decoding) = .ok d') :
    d'.unknown = d.unknown := by
  cases hn : narrow value name with
  | error error =>
    rw [hn] at h
    cases h
  | ok n =>
    rw [hn] at h
    cases h
    exact hf n

/-- Only unmodelled fields reach the unknown bytes. -/
theorem unknown_push {item : Field} {d d' : Decoding} (h : d.push item = .ok d') :
    d'.unknown = if modelled item then d.unknown else d.unknown.field item := by
  cases hmodelled : modelled item with
  | false =>
    rw [push_unmodelled hmodelled] at h
    cases h
    rfl
  | true =>
    rw [if_pos rfl]
    obtain ⟨number, value⟩ := item
    cases value with
    | varint value =>
      dsimp only [Decoding.push] at h
      split_ifs at h with h1 h2 h3 h4 h5 h6 h7
      · exact unknown_narrow (f := fun id => { d with
          header := { d.header with serviceId := id }, hasService := true }) (fun _ => rfl) h
      · exact unknown_narrow (f := fun id => { d with
          header := { d.header with methodId := id }, hasMethod := true }) (fun _ => rfl) h
      · exact unknown_narrow (f := fun token => { d with
          header := { d.header with token := token }, hasToken := true }) (fun _ => rfl) h
      · exact unknown_narrow (f := fun id => { d with
          header := { d.header with routingId := some id } }) (fun _ => rfl) h
      · exact unknown_narrow (f := fun size => { d with
          header := { d.header with size := some size } }) (fun _ => rfl) h
      · cases h
        rfl
      · cases h
        rfl
      · simp [modelled, h1, h2, h3, h4, h5, h6, h7] at hmodelled
    | bytes value =>
      dsimp only [Decoding.push] at h
      split_ifs at h with h1
      · cases h
        rfl
      · simp [modelled, h1] at hmodelled
    | fixed64 value => simp [modelled] at hmodelled
    | fixed32 value => simp [modelled] at hmodelled

theorem unknown_foldlM {found : List Field} {d d' : Decoding}
    (h : found.foldlM Decoding.push d = .ok d') :
    d'.unknown = (found.filter fun field => !modelled field).foldl Message.field d.unknown := by
  induction found generalizing d with
  | nil =>
    cases h
    rfl
  | cons field found ih =>
    rw [List.foldlM_cons] at h
    cases hpush : d.push field with
    | error error =>
      rw [hpush] at h
      cases h
    | ok pushed =>
      rw [hpush] at h
      rw [ih h, unknown_push hpush]
      cases hmodelled : modelled field <;> simp [hmodelled]

theorem foldlM_unmodelled {found : List Field} (h : ∀ field ∈ found, modelled field = false)
    (d : Decoding) : found.foldlM Decoding.push d =
      .ok { d with unknown := found.foldl Message.field d.unknown } := by
  induction found generalizing d with
  | nil => rfl
  | cons field found ih =>
    rw [List.foldlM_cons, push_unmodelled (h field List.mem_cons_self)]
    exact ih (fun other hother => h other (List.mem_cons_of_mem _ hother)) _

/-- The loop over items that are fields. -/
theorem foldlM_pushItem (found : List Field) (d : Decoding) :
    (found.map Except.ok).foldlM Decoding.pushItem d = found.foldlM Decoding.push d := by
  rw [List.foldlM_map]
  rfl

/-- What a header is decoded from spells fields, and the unmodelled ones are its unknown bytes. -/
theorem decode_ok {data : List UInt8} (hlength : data.length < 2 ^ 63) {header : Header}
    (h : decode data = .ok header) : ∃ found, Spells anyVarint found data ∧
      header.unknown = (Message.ofFields (found.filter fun field => !modelled field)).bytes := by
  unfold decode at h
  obtain ⟨found, error, hitems⟩ :=
    (Wire.fields ⟨data, hlength⟩).items_shape (Nat.zero_le _)
  rw [← Wire.itemsOf_eq_items] at hitems
  cases hfold : (itemsOf data).foldlM Decoding.pushItem .start with
  | error error =>
    rw [hfold] at h
    cases h
  | ok d =>
    rw [hfold] at h
    change d.finish = .ok header at h
    cases error with
    | some error =>
      rw [hitems, List.foldlM_append, foldlM_pushItem] at hfold
      cases hfound : found.foldlM Decoding.push Decoding.start with
      | error error =>
        rw [hfound] at hfold
        cases hfold
      | ok d =>
        rw [hfound] at hfold
        cases hfold
    | none =>
      rw [Option.map_none, Option.toList_none, List.append_nil] at hitems
      refine ⟨found, (itemsOf_eq_iff hlength).1 hitems, ?_⟩
      rw [hitems, foldlM_pushItem] at hfold
      unfold Decoding.finish at h
      split_ifs at h
      cases h
      exact congrArg Message.bytes (unknown_foldlM hfold)

/-! ## What is written -/

/-- The fields of a header, in the order in which they are written. -/
def fields (header : Header) : List Field :=
  [⟨Rpc.serviceId, .varint header.serviceId.toUInt64⟩,
    ⟨Rpc.methodId, .varint header.methodId.toUInt64⟩,
    ⟨Rpc.token, .varint header.token.toUInt64⟩] ++
  (header.routingId.map fun id => ⟨Rpc.routingId, .varint id.toUInt64⟩).toList ++
  (header.size.map fun size => ⟨Rpc.size, .varint size.toUInt64⟩).toList ++
  (header.objectId.map fun id => ⟨Rpc.objectId, .varint id⟩).toList ++
  (header.isResponse.map fun answers => ⟨Rpc.isResponse, .varint answers.toUInt64⟩).toList ++
  (header.requestTrace.map fun trace => ⟨Rpc.requestTrace, .bytes trace⟩).toList

theorem encode_eq (header : Header) :
    header.encode = (Message.ofFields header.fields).bytes ++ header.unknown := by
  obtain ⟨_, _, _, routing, size, object, answers, trace, _⟩ := header
  cases routing <;> cases size <;> cases object <;> cases answers <;> cases trace <;> rfl

theorem number_ne_zero {header : Header} : ∀ field ∈ header.fields, field.number ≠ 0 := by
  intro field hfield
  simp only [fields, List.mem_append, List.mem_cons, Option.mem_toList,
    Option.map_eq_some_iff, List.not_mem_nil, or_false] at hfield
  rcases hfield with ((((((rfl | rfl | rfl) | ⟨_, _, rfl⟩) | ⟨_, _, rfl⟩) | ⟨_, _, rfl⟩) |
    ⟨_, _, rfl⟩) | ⟨_, _, rfl⟩) <;>
    simp [Rpc.serviceId, Rpc.methodId, Rpc.token, Rpc.routingId, Rpc.size, Rpc.objectId,
      Rpc.isResponse, Rpc.requestTrace]

theorem narrow_toUInt64 (n : UInt32) (name : String) : narrow n.toUInt64 name = .ok n := by
  have hlt : n.toUInt64.toNat < 2 ^ 32 := n.toNat_lt
  rw [narrow, if_pos hlt, UInt32.toUInt32_toUInt64]

/-- A field that is written if it is there is read if it was written. -/
theorem foldlM_optional {α : Type} (value : Option α) {field : α → Field} {d : Decoding}
    {read : α → Decoding} (h : ∀ a, d.push (field a) = .ok (read a)) :
    (value.map field).toList.foldlM Decoding.push d = .ok ((value.map read).getD d) := by
  cases value with
  | none => rfl
  | some a =>
    rw [Option.map_some, Option.toList_some, List.foldlM_cons, h]
    rfl

/-- The fields of a header are read as they were written. -/
theorem foldlM_fields (header : Header) : header.fields.foldlM Decoding.push .start =
    .ok ⟨{ header with unknown := [] }, true, true, true, .new⟩ := by
  have hservice (d : Decoding) : d.push ⟨Rpc.serviceId, .varint header.serviceId.toUInt64⟩ =
      .ok { d with
        header := { d.header with serviceId := header.serviceId }
        hasService := true } := by
    simp [Decoding.push, narrow_toUInt64]
  have hmethod (d : Decoding) : d.push ⟨Rpc.methodId, .varint header.methodId.toUInt64⟩ =
      .ok { d with
        header := { d.header with methodId := header.methodId }
        hasMethod := true } := by
    simp [Decoding.push, narrow_toUInt64, Rpc.serviceId, Rpc.methodId]
  have htoken (d : Decoding) : d.push ⟨Rpc.token, .varint header.token.toUInt64⟩ =
      .ok { d with header := { d.header with token := header.token }, hasToken := true } := by
    simp [Decoding.push, narrow_toUInt64, Rpc.serviceId, Rpc.methodId, Rpc.token]
  have hrouting (d : Decoding) (id : UInt32) : d.push ⟨Rpc.routingId, .varint id.toUInt64⟩ =
      .ok { d with header := { d.header with routingId := some id } } := by
    simp [Decoding.push, narrow_toUInt64, Rpc.serviceId, Rpc.methodId, Rpc.token, Rpc.routingId]
  have hsize (d : Decoding) (size : UInt32) : d.push ⟨Rpc.size, .varint size.toUInt64⟩ =
      .ok { d with header := { d.header with size := some size } } := by
    simp [Decoding.push, narrow_toUInt64, Rpc.serviceId, Rpc.methodId, Rpc.token, Rpc.routingId,
      Rpc.size]
  have hobject (d : Decoding) (id : UInt64) : d.push ⟨Rpc.objectId, .varint id⟩ =
      .ok { d with header := { d.header with objectId := some id } } := by
    simp [Decoding.push, Rpc.serviceId, Rpc.methodId, Rpc.token, Rpc.routingId, Rpc.size,
      Rpc.objectId]
  have hanswers (d : Decoding) (answers : Bool) :
      d.push ⟨Rpc.isResponse, .varint answers.toUInt64⟩ =
        .ok { d with header := { d.header with isResponse := some answers } } := by
    cases answers <;> simp [Decoding.push, Rpc.serviceId, Rpc.methodId, Rpc.token, Rpc.routingId,
      Rpc.size, Rpc.objectId, Rpc.isResponse, Bool.toUInt64]
  have htrace (d : Decoding) (trace : List UInt8) : d.push ⟨Rpc.requestTrace, .bytes trace⟩ =
      .ok { d with header := { d.header with requestTrace := some trace } } := by
    simp [Decoding.push]
  unfold fields
  simp only [List.foldlM_append, List.foldlM_cons, List.foldlM_nil, hservice, hmethod, htoken]
  simp only [bind, Except.bind, pure, Except.pure]
  rw [foldlM_optional header.routingId (hrouting _)]
  dsimp only
  rw [foldlM_optional header.size (hsize _)]
  dsimp only
  rw [foldlM_optional header.objectId (hobject _)]
  dsimp only
  rw [foldlM_optional header.isResponse (hanswers _)]
  dsimp only
  rw [foldlM_optional header.requestTrace (htrace _)]
  obtain ⟨_, _, _, routing, size, object, answers, trace, _⟩ := header
  cases routing <;> cases size <;> cases object <;> cases answers <;> cases trace <;> rfl

/-- A written header is read back, with its unknown fields built anew. -/
theorem decode_encode {header : Header} {found : List Field}
    (hspells : Spells anyVarint found header.unknown)
    (hunmodelled : ∀ field ∈ found, modelled field = false)
    (hlength : header.encode.length < 2 ^ 63) : decode header.encode =
      .ok { header with unknown := (Message.ofFields found).bytes } := by
  rw [encode_eq] at hlength ⊢
  have hshort : (Message.ofFields header.fields).bytes.length < 2 ^ 63 := by
    rw [List.length_append] at hlength
    omega
  have hfields : Spells anyVarint header.fields (Message.ofFields header.fields).bytes :=
    (spells_ofFields number_ne_zero hshort).mono fun _ _ => trivial
  have hitems := (itemsOf_eq_iff hlength).2 (hfields.append hspells)
  unfold decode
  rw [hitems, foldlM_pushItem, List.foldlM_append, foldlM_fields]
  change (do let d ← found.foldlM Decoding.push _; d.finish) = _
  rw [foldlM_unmodelled hunmodelled]
  rfl

end Header

namespace Frame

open Header

theorem decode_append {headerBytes body : List UInt8} (hlength : headerBytes.length < 2 ^ 16) :
    decode (toBigEndian 2 headerBytes.length ++ headerBytes ++ body) = (do
      let header ← Header.decode headerBytes
      if header.size.any (·.toNat ≠ body.length) then
        throw (classicError
          s!"header body size {header.size.getD 0} does not match {body.length} bytes")
      return ⟨header, body⟩) := by
  have hinitial : getRange (toBigEndian 2 headerBytes.length ++ headerBytes ++ body) 0 2 =
      some (toBigEndian 2 headerBytes.length) := by
    rw [List.append_assoc, ← List.nil_append (toBigEndian 2 headerBytes.length), List.append_assoc]
    exact getRange_middle (List.append_assoc ..).symm rfl (by simp)
  have hsize : bigEndian (toBigEndian 2 headerBytes.length) = headerBytes.length :=
    bigEndian_toBigEndian (by omega)
  have hheader : getRange (toBigEndian 2 headerBytes.length ++ headerBytes ++ body) 2
      (2 + headerBytes.length) = some headerBytes :=
    getRange_middle rfl (by simp) (by simp)
  have hbody : (toBigEndian 2 headerBytes.length ++ headerBytes ++ body).drop
      (2 + headerBytes.length) = body := List.drop_left' (by simp)
  unfold decode
  rw [hinitial]
  dsimp only
  rw [hsize, hheader]
  dsimp only
  rw [hbody]

/-- What is written when writing succeeds. -/
theorem encode_ok {header : Header} {body encoded : List UInt8}
    (h : encode header body = .ok encoded) :
    body.length < 2 ^ 32 ∧ header.size.all (· = UInt32.ofNat body.length) ∧
      ({ header with size := some (UInt32.ofNat body.length) } : Header).encode.length < 2 ^ 16 ∧
      encoded = toBigEndian 2
        ({ header with size := some (UInt32.ofNat body.length) } : Header).encode.length ++
        ({ header with size := some (UInt32.ofNat body.length) } : Header).encode ++ body := by
  dsimp only [encode] at h
  split_ifs at h with hbody hsize hlength
  refine ⟨Nat.lt_of_not_le hbody, ?_, Nat.lt_of_not_le hlength, (Except.ok.inj h).symm⟩
  cases hs : header.size with
  | none => rfl
  | some size => simpa [hs] using hsize

/-- A frame is read back with its size, and with its unknown fields built anew. -/
theorem decode_encode {header : Header} {body encoded : List UInt8} {found : List Field}
    (hspells : Spells anyVarint found header.unknown)
    (hunmodelled : ∀ field ∈ found, modelled field = false)
    (h : encode header body = .ok encoded) : decode encoded = .ok ⟨{ header with
        size := some (UInt32.ofNat body.length)
        unknown := (Message.ofFields found).bytes }, body⟩ := by
  obtain ⟨hbody, -, hlength, rfl⟩ := encode_ok h
  have hread := @Header.decode_encode { header with
    size := some (UInt32.ofNat body.length) } found hspells hunmodelled (by omega)
  have hsize : (UInt32.ofNat body.length).toNat = body.length := by
    rw [UInt32.toNat_ofNat']
    omega
  rw [decode_append hlength, hread]
  have hmatches : ¬ (some (UInt32.ofNat body.length)).any (·.toNat ≠ body.length) = true := by
    simp [hsize]
  change (if _ then _ else _) = _
  rw [if_neg hmatches]
  rfl

/-- The length of the header that a frame begins with. -/
def headerSize (data : List UInt8) : Nat := bigEndian (data.take 2)

def headerBytes (data : List UInt8) : List UInt8 := (data.drop 2).take (headerSize data)

/-- What a frame is read from. -/
theorem decode_ok_iff {data : List UInt8} {frame : Frame} : decode data = .ok frame ↔
    2 ≤ data.length ∧ 2 + headerSize data ≤ data.length ∧
      Header.decode (headerBytes data) = .ok frame.header ∧
      frame.body = data.drop (2 + headerSize data) ∧
      frame.header.size.all (·.toNat = frame.body.length) = true := by
  unfold decode
  by_cases htwo : 2 ≤ data.length
  · have hinitial : getRange data 0 2 = some (data.take 2) := by
      rw [getRange, if_pos ⟨by omega, htwo⟩]
      rfl
    rw [hinitial]
    dsimp only
    rw [← headerSize]
    by_cases hheader : 2 + headerSize data ≤ data.length
    · have hbytes : getRange data 2 (2 + headerSize data) = some (headerBytes data) := by
        rw [getRange, if_pos ⟨by omega, hheader⟩, headerBytes, Nat.add_sub_cancel_left]
      rw [hbytes]
      dsimp only
      cases hread : Header.decode (headerBytes data) with
      | error error =>
        constructor
        · intro h
          cases h
        · intro h
          cases h.2.2.1
      | ok header =>
        change (if _ then _ else _) = _ ↔ _
        by_cases hsize : header.size.any (·.toNat ≠ (data.drop (2 + headerSize data)).length) = true
        · rw [if_pos hsize]
          constructor
          · intro h
            cases h
          · intro h
            obtain ⟨-, -, hheader, hbody, hall⟩ := h
            obtain rfl := Except.ok.inj hheader
            rw [hbody] at hall
            cases hs : frame.header.size <;> simp_all
        · rw [if_neg hsize]
          constructor
          · intro h
            obtain rfl : (⟨header, data.drop (2 + headerSize data)⟩ : Frame) = frame :=
              Except.ok.inj h
            refine ⟨htwo, hheader, rfl, rfl, ?_⟩
            cases hs : header.size <;> simp_all
          · intro h
            obtain ⟨-, -, hheader, hbody, -⟩ := h
            obtain ⟨frameHeader, frameBody⟩ := frame
            obtain rfl := Except.ok.inj hheader
            obtain rfl := hbody
            rfl
    · have hbytes : getRange data 2 (2 + headerSize data) = none := by
        rw [getRange, if_neg fun h => hheader h.2]
      rw [hbytes]
      exact ⟨fun h => (by cases h), fun h => absurd h.2.1 hheader⟩
  · have hinitial : getRange data 0 2 = none := by
      rw [getRange, if_neg fun h => htwo h.2]
    rw [hinitial]
    exact ⟨fun h => (by cases h), fun h => absurd h.1 htwo⟩

theorem length_headerBytes_lt (data : List UInt8) : (headerBytes data).length < 2 ^ 16 := by
  have hsize : headerSize data < 256 ^ (data.take 2).length := bigEndian_lt _
  have hpow : 256 ^ (data.take 2).length ≤ 256 ^ 2 :=
    Nat.pow_le_pow_right (by decide) (List.length_take_le _ _)
  rw [headerBytes, List.length_take]
  omega

/-- The unknown bytes of a frame that was read are its unmodelled fields, in their order. -/
theorem unknown_of_decode {data : List UInt8} {frame : Frame} (h : decode data = .ok frame) :
    ∃ found, Spells anyVarint found (headerBytes data) ∧ frame.header.unknown =
      (Message.ofFields (found.filter fun field => !modelled field)).bytes :=
  Header.decode_ok (lt_trans (length_headerBytes_lt data) (by decide)) (decode_ok_iff.1 h).2.2.1

/-- What was read with a size and fits again is written, and read as it is. -/
theorem encode_decode {data : List UInt8} {frame : Frame} (h : decode data = .ok frame)
    (hsize : frame.header.size.isSome = true) (hfits : frame.header.encode.length < 2 ^ 16) :
    ∃ encoded, encode frame.header frame.body = .ok encoded ∧ decode encoded = .ok frame := by
  obtain ⟨size, hsize⟩ := Option.isSome_iff_exists.1 hsize
  obtain ⟨-, -, -, -, hlength⟩ := decode_ok_iff.1 h
  obtain ⟨found, hspells, hunknown⟩ := unknown_of_decode h
  rw [hsize, Option.all_some, decide_eq_true_eq] at hlength
  have hbody : frame.body.length < 2 ^ 32 := hlength ▸ size.toNat_lt
  have hsame : UInt32.ofNat frame.body.length = size := by rw [← hlength, UInt32.ofNat_toNat]
  have hheader : ({ frame.header with size := some (UInt32.ofNat frame.body.length) } : Header) =
      frame.header := by rw [hsame, ← hsize]
  have hencoded : encode frame.header frame.body = .ok
      (toBigEndian 2 frame.header.encode.length ++ frame.header.encode ++ frame.body) := by
    dsimp only [encode]
    rw [if_neg (Nat.not_le.2 hbody), if_neg (by simp [hsize, hsame]), hheader,
      if_neg (Nat.not_le.2 hfits)]
  refine ⟨_, hencoded, ?_⟩
  obtain ⟨hnumbers, -, -⟩ := ofFields_of_spells hspells
    (lt_trans (length_headerBytes_lt data) (by decide))
  have hunknown_lt : frame.header.unknown.length < 2 ^ 63 := by
    rw [Header.encode_eq, List.length_append] at hfits
    omega
  have hspells' : Spells anyVarint (found.filter fun field => !modelled field)
      frame.header.unknown := by
    rw [hunknown]
    refine (spells_ofFields (fun field hfield => ?_) (hunknown ▸ hunknown_lt)).mono
      fun _ _ => trivial
    exact hnumbers field (List.mem_filter.1 hfield).1
  rw [decode_encode hspells' (fun field hfield => ?_) hencoded]
  · rw [← hunknown, hsame, ← hsize]
  · simpa using (List.mem_filter.1 hfield).2

/-- **Round trips of frames.** A frame that is written from a header whose unknown bytes are
unmodelled fields is read as it was written, with its size, exactly when the unknown bytes use the
shortest varints. What was read with a size and fits again is written and read as it is, and its
unknown bytes are the unmodelled fields in their order. A frame that ends before its header does,
or that has not the length its header declares, is refused. -/
theorem roundTrips_iff (header : Header) (body data : List UInt8) :
    (∀ encoded found, Spells anyVarint found header.unknown →
      (∀ field ∈ found, modelled field = false) → encode header body = .ok encoded →
      (decode encoded =
        .ok ⟨{ header with size := some (UInt32.ofNat body.length) }, body⟩ ↔
          ∃ found', Spells IsShortest found' header.unknown)) ∧
    (∀ frame, decode data = .ok frame →
      (frame.header.size.isSome = true → frame.header.encode.length < 2 ^ 16 →
        ∃ encoded, encode frame.header frame.body = .ok encoded ∧
          decode encoded = .ok frame) ∧
      ∃ found, Spells anyVarint found (headerBytes data) ∧ frame.header.unknown =
        (Message.ofFields (found.filter fun field => !modelled field)).bytes) ∧
    (data.length < 2 ∨ data.length < 2 + headerSize data →
      ∃ error, decode data = .error error) ∧
    (∀ header size, Header.decode (headerBytes data) = .ok header →
      header.size = some size → size.toNat ≠ (data.drop (2 + headerSize data)).length →
      ∃ error, decode data = .error error) := by
  have hrefused (h : ∀ frame, decode data ≠ .ok frame) :
      ∃ error, decode data = .error error := by
    cases hread : decode data with
    | error error => exact ⟨error, rfl⟩
    | ok frame => exact absurd hread (h frame)
  refine ⟨fun encoded found hspells hunmodelled h => ?_, fun frame h => ?_,
    fun hshort => hrefused fun frame h => ?_,
    fun header size hheader hsize hne => hrefused fun frame h => ?_⟩
  · have hlength : header.unknown.length < 2 ^ 63 := by
      obtain ⟨-, -, hfits, -⟩ := encode_ok h
      rw [Header.encode_eq, List.length_append] at hfits
      dsimp only at hfits
      omega
    rw [← ofFields_eq_iff hspells hlength, decode_encode hspells hunmodelled h]
    constructor
    · intro heq
      exact congrArg (fun frame => frame.header.unknown) (Except.ok.inj heq)
    · intro heq
      rw [heq]
  · exact ⟨encode_decode h, unknown_of_decode h⟩
  · obtain ⟨htwo, hheader, -⟩ := decode_ok_iff.1 h
    omega
  · obtain ⟨-, -, hheader', hbody, hall⟩ := decode_ok_iff.1 h
    obtain rfl := Except.ok.inj (hheader.symm.trans hheader')
    rw [hsize, Option.all_some, decide_eq_true_eq, hbody] at hall
    exact hne hall

/-- A field 7 whose value takes two bytes where one would do. -/
def overlong : Header := { default_ with unknown := [0x38, 0x80, 0x00] }

/-- The field is read and built anew with one byte for its value. -/
theorem not_roundTrips : ¬ ∀ header body encoded found, Spells anyVarint found header.unknown →
    (∀ field ∈ found, modelled field = false) → encode header body = .ok encoded →
    decode encoded = .ok ⟨{ header with size := some (UInt32.ofNat body.length) }, body⟩ := by
  intro h
  have hspells : Spells anyVarint [⟨7, .varint 0⟩] overlong.unknown :=
    (itemsOf_eq_iff (by decide)).1 (by decide +kernel)
  have hencoded : encode overlong [] =
      .ok [0, 11, 8, 0, 16, 0, 24, 0, 40, 0, 0x38, 0x80, 0x00] := by decide +kernel
  have hread := h overlong [] _ _ hspells (by decide) hencoded
  revert hread
  decide +kernel

end Frame

end Superiority.Rpc
