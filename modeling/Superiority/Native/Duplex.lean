import Superiority.Library.Run
import Superiority.Native.Stream

/-!
# Two ends of a protected transport

A client and a server stream joined by two byte pipes. Either end may write, read any part of what
is on its way, consume what it has, and switch protection on; the steps of the two ends interleave
freely. Two histories are kept beside the state: what each end has sent since its switch, and what
has been appended to its buffer in decrypted form.

The RC4 positions and the pipes are tied together by `Aligned`: the bytes an end has written since
its switch are those its peer has read, under the same keystream, followed by those in the pipe.
It is kept by every step (**`aligned_step`**), and gives the result **`duplex_agrees`**: each end
decrypts exactly what the other sent.
-/

namespace Superiority

/-! ## The system -/

inductive Side where
  | client | server
  deriving DecidableEq, Repr

def Side.peer : Side → Side
  | .client => .server
  | .server => .client

@[simp] theorem Side.peer_peer (side : Side) : side.peer.peer = side := by cases side <;> rfl

@[simp] theorem Side.peer_ne (side : Side) : side.peer ≠ side := by cases side <;> decide

/-- Both ends, the bytes on their way to each, and the histories since each end's switch: the
plaintext given to `send`, the bytes it put on the socket, and the decrypted bytes appended to
its buffer. -/
structure Duplex where
  stream : Side → RecordStream
  socket : Side → List UInt8
  sent : Side → List UInt8
  written : Side → List UInt8
  received : Side → List UInt8

inductive DuplexStep where
  | enable (side : Side)
  | send (side : Side) (data : List UInt8)
  | read (side : Side) (count : Nat)
  | consume (side : Side) (count : Nat)
  deriving DecidableEq, Repr

/-- One side's map changed. -/
def setSide {α : Type} (f : Side → α) (side : Side) (a : α) : Side → α :=
  fun x => if x = side then a else f x

@[simp] theorem setSide_same {α : Type} (f : Side → α) (side : Side) (a : α) :
    setSide f side a side = a := by
  simp [setSide]

@[simp] theorem setSide_of_ne {α : Type} (f : Side → α) {side x : Side} (a : α) (h : x ≠ side) :
    setSide f side a x = f x := by
  simp [setSide, h]

namespace Duplex

variable (P : Primitives) (key : List UInt8)

/-- The end has switched. -/
def switched (d : Duplex) (side : Side) : Bool := (d.stream side).protectionEnabled

/-- Each end switches with its own function. -/
def enableSide (side : Side) (s : RecordStream) (key : List UInt8) :
    Except Error Unit × RecordStream :=
  match side with
  | .client => s.enableProtection P key
  | .server => s.enableProtectionServer P key

def step (d : Duplex) : DuplexStep → Duplex
  | .enable side =>
    match enableSide P side (d.stream side) key with
    | (.ok (), s) => { d with
        stream := setSide d.stream side s
        received := setSide d.received side s.buffer }
    | (.error _, s) => { d with stream := setSide d.stream side s }
  | .send side data =>
    let (bytes, s) := (d.stream side).send P data
    { d with
      stream := setSide d.stream side s
      socket := setSide d.socket side.peer (d.socket side.peer ++ bytes)
      sent := if d.switched side then setSide d.sent side (d.sent side ++ data) else d.sent
      written := if d.switched side then setSide d.written side (d.written side ++ bytes)
        else d.written }
  | .read side count =>
    let count := min count readChunkSize
    let (_, s) := (d.stream side).readMore P ((d.socket side).take count)
    { d with
      stream := setSide d.stream side s
      socket := setSide d.socket side ((d.socket side).drop count)
      received := if d.switched side then
          setSide d.received side (d.received side ++ s.buffer.drop (d.stream side).buffer.length)
        else d.received }
  | .consume side count =>
    { d with stream := setSide d.stream side ((d.stream side).consumeBuffered count) }

/-- Nothing is protected yet; the buffers and pipes may hold anything. -/
structure Fresh (d : Duplex) : Prop where
  inbound : ∀ side, (d.stream side).inboundCipher = none
  outbound : ∀ side, (d.stream side).outboundCipher = none
  sent : ∀ side, d.sent side = []
  written : ∀ side, d.written side = []
  received : ∀ side, d.received side = []

/-- An end switches when its buffer and its unread socket data hold only bytes its peer wrote
after the peer's own switch. No clear byte follows: an end that has not switched does not write to
one that has, and it takes from its buffer only what its peer wrote in the clear. -/
def Proper (d : Duplex) : DuplexStep → Prop
  | .enable side =>
    d.switched side ∨ (d.stream side).buffer ++ d.socket side <:+ d.written side.peer
  | .send side _ => d.switched side ∨ ¬ d.switched side.peer
  | .read _ _ => True
  | .consume side count => d.switched side ∨
      count + (d.written side.peer).length ≤ ((d.stream side).buffer ++ d.socket side).length

/-! ## Keys -/

/-- The key an end sends under. -/
def outKey (side : Side) : List UInt8 :=
  match side with
  | .client => hmacSha256 P key [outboundRc4Label]
  | .server => hmacSha256 P key [inboundRc4Label]

/-- The keystream an end sends under. -/
abbrev outStream (side : Side) : Nat → UInt8 := P.rc4Keystream (outKey P key side)

theorem rc4State_new_outKey (side : Side) :
    Rc4State.new (outKey P key side) = .ok { key := outKey P key side, position := 0 } := by
  have hlength : (outKey P key side).length = 32 := by cases side <;> simp [outKey]
  simp [Rc4State.new, hlength]

/-- The keys are mirrored: an end reads under the key its peer sends under. -/
theorem enableSide_of_clear {P : Primitives} {key : List UInt8} (hkey : key.length = 64)
    {side : Side} {s : RecordStream} (hin : s.inboundCipher = none)
    (hout : s.outboundCipher = none) :
    enableSide P side s key = (.ok (), { s with
      buffer := xorFrom (outStream P key side.peer) 0 s.buffer
      inboundCipher := some { key := outKey P key side.peer, position := s.buffer.length }
      outboundCipher := some { key := outKey P key side, position := 0 } }) := by
  have hclient := rc4State_new_outKey P key .client
  have hserver := rc4State_new_outKey P key .server
  simp only [outKey] at hclient hserver
  cases side <;>
    simp [enableSide, RecordStream.enableProtection, RecordStream.enableProtectionServer,
      RecordStream.installCiphers, hin, hout, deriveTransportRc4Keys, requireLength, hkey, hclient,
      hserver, Rc4State.apply, Side.peer, outKey, outStream, bind, Except.bind, pure, Except.pure]

/-- Protection is switched on once: a second call fails and changes nothing. -/
theorem enable_of_switched {P : Primitives} {s : RecordStream} (h : s.protectionEnabled)
    (key : List UInt8) :
    (s.enableProtection P key = (.error (.native "native transport protection is already enabled"), s))
      ∧ (s.enableProtectionServer P key =
        (.error (.native "native transport protection is already enabled"), s)) := by
  simp only [RecordStream.protectionEnabled] at h
  constructor <;> simp [RecordStream.enableProtection, RecordStream.enableProtectionServer,
    RecordStream.installCiphers, h]

/-! ## The invariant -/

/-- What ties an end to its peer. -/
structure AlignedSide (d : Duplex) (side : Side) : Prop where
  /-- Before the switch no cipher, and nothing sent or written under one. -/
  clear : d.switched side = false → (d.stream side).inboundCipher = none ∧
    (d.stream side).outboundCipher = none ∧ d.sent side = [] ∧ d.written side = []
  /-- After it both ciphers, at the positions reached. -/
  ciphers : d.switched side → (d.stream side).inboundCipher =
      some { key := outKey P key side.peer, position := (d.received side).length } ∧
    (d.stream side).outboundCipher =
      some { key := outKey P key side, position := (d.sent side).length }
  written : d.written side = xorFrom (outStream P key side) 0 (d.sent side)
  /-- Before the switch the unread bytes end with what the peer has written since its own. -/
  unread : d.switched side = false →
    ∃ before, (d.stream side).buffer ++ d.socket side = before ++ d.written side.peer
  /-- After it the bytes the peer has written are those received and those in the pipe. -/
  piped : d.switched side → d.written side.peer =
    xorFrom (outStream P key side.peer) 0 (d.received side) ++ d.socket side
  buffered : d.switched side → (d.stream side).buffer <:+ d.received side

def Aligned (d : Duplex) : Prop := ∀ side, AlignedSide P key d side

/-- Every byte the end has received is the byte its peer sent, and as many are missing as are
still unread. -/
def Agrees (d : Duplex) (side : Side) : Prop :=
  ∃ rest, d.sent side.peer = d.received side ++ rest ∧ rest.length = (d.socket side).length

variable {P key}

theorem AlignedSide.agrees {d : Duplex} {side : Side} (h : AlignedSide P key d side)
    (hpeer : AlignedSide P key d side.peer) (hswitched : d.switched side) : d.Agrees side := by
  have hpiped := h.piped hswitched
  rw [hpeer.written] at hpiped
  refine ⟨_, eq_append_of_xorFrom _ hpiped, ?_⟩
  rw [length_xorFrom]

theorem aligned_fresh {d : Duplex} (h : Fresh d) : Aligned P key d := by
  have hswitched : ∀ side, d.switched side = false := by
    intro side
    simp [switched, RecordStream.protectionEnabled, h.inbound side]
  intro side
  exact {
    clear := fun _ => ⟨h.inbound side, h.outbound side, h.sent side, h.written side⟩
    ciphers := fun hs => by simp [hswitched side] at hs
    written := by simp [h.written side, h.sent side]
    unread := fun _ => ⟨_, by rw [h.written, List.append_nil]⟩
    piped := fun hs => by simp [hswitched side] at hs
    buffered := fun hs => by simp [hswitched side] at hs }

/-! ## What each step keeps -/

@[simp] theorem setSide_apply {α : Type} (f : Side → α) (side x : Side) (a : α) :
    setSide f side a x = if x = side then a else f x := rfl

theorem Side.eq_or_eq_peer (side x : Side) : x = side ∨ x = side.peer := by
  cases side <;> cases x <;> simp [Side.peer]

/-- An end that is switched for the first time, in the form the step leaves it in. -/
theorem step_enable_clear (hkey : key.length = 64) {d : Duplex} {side : Side}
    (h : AlignedSide P key d side) (hclear : d.switched side = false) :
    d.step P key (.enable side) = { d with
      stream := setSide d.stream side { d.stream side with
        buffer := xorFrom (outStream P key side.peer) 0 (d.stream side).buffer
        inboundCipher := some
          { key := outKey P key side.peer, position := (d.stream side).buffer.length }
        outboundCipher := some { key := outKey P key side, position := 0 } }
      received := setSide d.received side
        (xorFrom (outStream P key side.peer) 0 (d.stream side).buffer) } := by
  obtain ⟨hin, hout, -, -⟩ := h.clear hclear
  simp only [step, enableSide_of_clear hkey hin hout]

theorem step_enable_switched {d : Duplex} {side : Side} (h : d.switched side) :
    d.step P key (.enable side) = d := by
  have hfails := enable_of_switched (P := P) h key
  have hself : setSide d.stream side (d.stream side) = d.stream := by
    funext x
    by_cases hx : x = side
    · simp [hx]
    · simp [hx]
  cases side <;> simp [step, enableSide, hfails, hself]

/-- Only its own stream and histories, and what its peer has written, decide how an end stands. -/
theorem AlignedSide.congr {d d' : Duplex} {side : Side} (h : AlignedSide P key d side)
    (hstream : d'.stream side = d.stream side) (hsocket : d'.socket side = d.socket side)
    (hsent : d'.sent side = d.sent side) (hwritten : d'.written side = d.written side)
    (hreceived : d'.received side = d.received side)
    (hpeer : d'.written side.peer = d.written side.peer) : AlignedSide P key d' side := by
  have hswitched : d'.switched side = d.switched side := by
    rw [switched, switched, hstream]
  exact {
    clear := by rw [hswitched, hstream, hsent, hwritten]; exact h.clear
    ciphers := by rw [hswitched, hstream, hsent, hreceived]; exact h.ciphers
    written := by rw [hwritten, hsent]; exact h.written
    unread := by rw [hswitched, hstream, hsocket, hpeer]; exact h.unread
    piped := by rw [hswitched, hsocket, hpeer, hreceived]; exact h.piped
    buffered := by rw [hswitched, hstream, hreceived]; exact h.buffered }

theorem aligned_enable (hkey : key.length = 64) {d : Duplex} {side : Side} (h : Aligned P key d)
    (hproper : Proper d (.enable side)) : Aligned P key (d.step P key (.enable side)) := by
  by_cases hswitched : d.switched side
  · rwa [step_enable_switched hswitched]
  · have hclear : d.switched side = false := by simpa using hswitched
    have hside := h side
    rw [step_enable_clear hkey hside hclear]
    intro x
    rcases Side.eq_or_eq_peer side x with rfl | rfl
    · -- The unread bytes are exactly what the peer has written since its switch.
      have hunread : (d.stream x).buffer ++ d.socket x = d.written x.peer := by
        obtain ⟨before, hbefore⟩ := hside.unread hclear
        have hsuffix := hproper.resolve_left hswitched
        have hlength := hsuffix.length_le
        rw [hbefore, List.length_append] at hlength
        have hnil : before = [] := List.eq_nil_of_length_eq_zero (by omega)
        rw [hbefore, hnil, List.nil_append]
      obtain ⟨-, -, hsent, -⟩ := hside.clear hclear
      exact {
        clear := fun hc => by simp [switched, RecordStream.protectionEnabled] at hc
        ciphers := fun _ => by simp [hsent]
        written := hside.written
        unread := fun hc => by simp [switched, RecordStream.protectionEnabled] at hc
        piped := fun _ => by simp [xorFrom_xorFrom, hunread]
        buffered := fun _ => by simp }
    · exact (h side.peer).congr (by simp) rfl rfl rfl (by simp) rfl

/-- What `send` does to a stream whose outbound cipher has reached a position. -/
theorem send_of_cipher {s : RecordStream} {cipher : Rc4State} (h : s.outboundCipher = some cipher)
    (data : List UInt8) :
    s.send P data = (xorFrom (P.rc4Keystream cipher.key) cipher.position data, { s with
      outboundCipher := some { cipher with position := cipher.position + data.length } }) := by
  simp [RecordStream.send, h, Rc4State.apply]

theorem aligned_send {d : Duplex} {side : Side} {data : List UInt8} (h : Aligned P key d)
    (hproper : Proper d (.send side data)) : Aligned P key (d.step P key (.send side data)) := by
  have hside := h side
  have hpeer := h side.peer
  by_cases hswitched : d.switched side
  · obtain ⟨hin, hout⟩ := hside.ciphers hswitched
    have hstep := send_of_cipher (P := P) hout data
    have hwritten : d.written side ++ xorFrom (outStream P key side) (d.sent side).length data =
        xorFrom (outStream P key side) 0 (d.sent side ++ data) := by
      rw [xorFrom_append, Nat.zero_add, ← hside.written]
    intro x
    simp only [step, hstep, hswitched, if_true]
    rcases Side.eq_or_eq_peer side x with rfl | rfl
    · exact {
        clear := fun hc => by
          simp [switched, RecordStream.protectionEnabled, hin] at hc
        ciphers := fun _ => by simp [hin]
        written := by simpa using hwritten
        unread := fun hc => by
          simp [switched, RecordStream.protectionEnabled, hin] at hc
        piped := fun _ => by simpa [(Side.peer_ne x).symm] using hside.piped hswitched
        buffered := fun _ => by simpa using hside.buffered hswitched }
    · have hsame : ∀ s : Side → RecordStream, s side.peer = d.stream side.peer →
          (s side.peer).protectionEnabled = d.switched side.peer := by
        intro s hs
        rw [hs, switched]
      exact {
        clear := fun hc => by
          simpa using hpeer.clear (by simpa [switched] using hc)
        ciphers := fun hc => by
          simpa using hpeer.ciphers (by simpa [switched] using hc)
        written := by simpa using hpeer.written
        unread := fun hc => by
          obtain ⟨before, hbefore⟩ := hpeer.unread (by simpa [switched] using hc)
          refine ⟨before, ?_⟩
          simp only [Side.peer_peer] at hbefore
          simp [← List.append_assoc, hbefore]
        piped := fun hc => by
          have hpiped := hpeer.piped (by simpa [switched] using hc)
          simp only [Side.peer_peer] at hpiped
          simp [hpiped]
        buffered := fun hc => by
          simpa using hpeer.buffered (by simpa [switched] using hc) }
  · have hclear : d.switched side = false := by simpa using hswitched
    have hpeerClear : d.switched side.peer = false := by
      simpa using hproper.resolve_left hswitched
    obtain ⟨hin, hout, hsent, hwritten⟩ := hside.clear hclear
    have hstep : (d.stream side).send P data = (data, d.stream side) := by
      simp [RecordStream.send, hout]
    intro x
    simp only [step, hstep, hclear, Bool.false_eq_true, if_false]
    rcases Side.eq_or_eq_peer side x with rfl | rfl
    · exact hside.congr (by simp) (by simp [(Side.peer_ne x).symm]) rfl rfl rfl rfl
    · exact {
        clear := fun hc => by
          simpa using hpeer.clear (by simpa [switched] using hc)
        ciphers := fun hc => by
          simpa using hpeer.ciphers (by simpa [switched] using hc)
        written := by simpa using hpeer.written
        -- Nothing protected has been written yet, so every unread byte is a clear one.
        unread := fun _ => ⟨(d.stream side.peer).buffer ++ (d.socket side.peer ++ data), by
          simp [hwritten]⟩
        piped := fun hc => by simp [switched] at hc; simp [switched, hc] at hpeerClear
        buffered := fun hc => by
          simpa using hpeer.buffered (by simpa [switched] using hc) }

theorem readMore_of_cipher {s : RecordStream} {cipher : Rc4State}
    (h : s.inboundCipher = some cipher) (chunk : List UInt8) :
    (s.readMore P chunk).2 = { s with
      buffer := s.buffer ++ xorFrom (P.rc4Keystream cipher.key) cipher.position chunk
      inboundCipher := some { cipher with position := cipher.position + chunk.length } } := by
  cases chunk with
  | nil => cases s; simp_all [RecordStream.readMore]
  | cons b bs => simp [RecordStream.readMore, h, Rc4State.apply]

theorem readMore_of_clear {s : RecordStream} (h : s.inboundCipher = none) (chunk : List UInt8) :
    (s.readMore P chunk).2 = { s with buffer := s.buffer ++ chunk } := by
  cases chunk with
  | nil => cases s; simp_all [RecordStream.readMore]
  | cons b bs => simp [RecordStream.readMore, h]

theorem aligned_read {d : Duplex} {side : Side} {count : Nat} (h : Aligned P key d) :
    Aligned P key (d.step P key (.read side count)) := by
  have hside := h side
  generalize hn : min count readChunkSize = n
  by_cases hswitched : d.switched side
  · obtain ⟨hin, hout⟩ := hside.ciphers hswitched
    have hread := readMore_of_cipher (P := P) hin ((d.socket side).take n)
    intro x
    simp only [step, hn, hread, hswitched, if_true, List.drop_left]
    rcases Side.eq_or_eq_peer side x with rfl | rfl
    · exact {
        clear := fun hc => by simp [switched, RecordStream.protectionEnabled] at hc
        ciphers := fun _ => by simp [hout]
        written := hside.written
        unread := fun hc => by simp [switched, RecordStream.protectionEnabled] at hc
        piped := fun _ => by
          simp only [setSide_same]
          rw [xorFrom_append, Nat.zero_add, xorFrom_xorFrom, List.append_assoc, List.take_append_drop]
          exact hside.piped hswitched
        buffered := fun _ => by
          obtain ⟨front, hfront⟩ := hside.buffered hswitched
          exact ⟨front, by simp [← hfront]⟩ }
    · exact (h side.peer).congr (by simp) (by simp) rfl rfl (by simp) rfl
  · have hclear : d.switched side = false := by simpa using hswitched
    obtain ⟨hin, hout, -, hwritten⟩ := hside.clear hclear
    have hread := readMore_of_clear (P := P) hin ((d.socket side).take n)
    intro x
    simp only [step, hn, hread, hclear, Bool.false_eq_true, if_false]
    rcases Side.eq_or_eq_peer side x with rfl | rfl
    · exact {
        clear := fun _ => by simpa [hin, hout] using hside.clear hclear
        ciphers := fun hc => by simp [switched, RecordStream.protectionEnabled, hin] at hc
        written := hside.written
        unread := fun _ => by simpa using hside.unread hclear
        piped := fun hc => by simp [switched, RecordStream.protectionEnabled, hin] at hc
        buffered := fun hc => by simp [switched, RecordStream.protectionEnabled, hin] at hc }
    · exact (h side.peer).congr (by simp) (by simp) rfl rfl rfl rfl

theorem aligned_consume {d : Duplex} {side : Side} {count : Nat} (h : Aligned P key d)
    (hproper : Proper d (.consume side count)) :
    Aligned P key (d.step P key (.consume side count)) := by
  have hside := h side
  intro x
  rcases Side.eq_or_eq_peer side x with rfl | rfl
  · have hsame : (d.step P key (.consume x count)).switched x = d.switched x := by
      simp [step, switched, RecordStream.protectionEnabled, RecordStream.consumeBuffered]
    exact {
      clear := fun hc => by
        simpa [step, RecordStream.consumeBuffered] using hside.clear (hsame ▸ hc)
      ciphers := fun hc => by
        simpa [step, RecordStream.consumeBuffered] using hside.ciphers (hsame ▸ hc)
      written := hside.written
      unread := fun hc => by
        rw [hsame] at hc
        obtain ⟨before, hbefore⟩ := hside.unread hc
        have hcount := hproper.resolve_left (by simp [hc])
        have hlength := congrArg List.length hbefore
        rw [hlength, List.length_append] at hcount
        refine ⟨before.drop (min count (d.stream x).buffer.length), ?_⟩
        show ((d.step P key (.consume x count)).stream x).buffer ++ d.socket x =
          before.drop (min count (d.stream x).buffer.length) ++ d.written x.peer
        rw [← List.drop_append_of_le_length (by omega), ← hbefore,
          List.drop_append_of_le_length (by omega)]
        simp [step, RecordStream.consumeBuffered]
      piped := fun hc => hside.piped (hsame ▸ hc)
      buffered := fun hc => by
        refine List.IsSuffix.trans ?_ (hside.buffered (hsame ▸ hc))
        simp only [step, setSide_same, RecordStream.consumeBuffered]
        exact List.drop_suffix _ _ }
  · exact (h side.peer).congr (by simp [step]) rfl rfl rfl rfl rfl

theorem aligned_step (hkey : key.length = 64) (d : Duplex) (s : DuplexStep) (h : Aligned P key d)
    (hproper : Proper d s) : Aligned P key (d.step P key s) := by
  cases s with
  | enable side => exact aligned_enable hkey h hproper
  | send side data => exact aligned_send h hproper
  | read side count => exact aligned_read h
  | consume side count => exact aligned_consume h hproper

/-- **The two ends agree.** In every run whose switches are proper, an end that has switched has
received exactly the bytes its peer sent, as far as it has read them, its buffer is the rest of
those bytes, and a second call of either switch fails and leaves its stream as it is. -/
theorem duplex_agrees (P : Primitives) {key : List UInt8} (hkey : key.length = 64) {d : Duplex}
    (hd : Fresh d) {steps : List DuplexStep} (hsteps : StepsMeet (step P key) Proper d steps)
    {side : Side} (hswitched : (run (step P key) d steps).switched side) :
    (run (step P key) d steps).Agrees side ∧
      ((run (step P key) d steps).stream side).buffer <:+ (run (step P key) d steps).received side ∧
      ∀ again, let s := (run (step P key) d steps).stream side
        s.enableProtection P again =
            (.error (.native "native transport protection is already enabled"), s) ∧
          s.enableProtectionServer P again =
            (.error (.native "native transport protection is already enabled"), s) := by
  have haligned : Aligned P key (run (step P key) d steps) :=
    run_invariant (fun d s h hs => aligned_step hkey d s h hs) (aligned_fresh hd) hsteps
  exact ⟨(haligned side).agrees (haligned side.peer) hswitched,
    (haligned side).buffered hswitched, fun again => enable_of_switched hswitched again⟩

/-- A client that writes two bytes and a server that switches with one of them buffered. -/
theorem duplex_agrees_example :
    let P : Primitives := {
      hmac := fun key message => Vector.replicate 32 (key.headD 0 + message.headD 0)
      rc4Keystream := fun key i => key.headD 0 + UInt8.ofNat i }
    let d : Duplex := {
      stream := fun side => { serverMode := side = .server }
      socket := fun _ => [], sent := fun _ => [], written := fun _ => [], received := fun _ => [] }
    let steps : List DuplexStep := [.enable .client, .send .client [7, 9], .read .server 1,
      .enable .server, .read .server 5, .send .server [1], .read .client 1]
    (run (step P (List.replicate 64 3)) d steps).Agrees .server := by
  intro P d steps
  have hfresh : Fresh d := ⟨fun _ => rfl, fun _ => rfl, fun _ => rfl, fun _ => rfl, fun _ => rfl⟩
  have hsteps : StepsMeet (step P (List.replicate 64 3)) Proper d steps :=
    ⟨Or.inr ⟨[], rfl⟩, Or.inl (by decide), trivial, Or.inr ⟨[], by decide⟩, trivial,
      Or.inl (by decide), trivial, trivial⟩
  have hswitched : (run (step P (List.replicate 64 3)) d steps).switched .server := by decide
  exact (duplex_agrees P (by simp) hfresh hsteps hswitched).1

end Duplex

end Superiority
