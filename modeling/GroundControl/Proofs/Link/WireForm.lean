import GroundControl.Instruction

/-!
# Wire forms

A byte names one instruction at most, and each instruction has its byte.  So what is decoded is what
was encoded, whatever the arguments are, and nothing else is decoded.

* `ofByte?_eq_some_iff`, `ofByte?_eq_none_iff`: the bytes that name an instruction;
* `decode?_eq_some_iff`, `decode?_eq_none_iff`: what is decoded, and what is not;
* `key_payload_eq_some_iff`, `key_payload_eq_none_iff`, `expectsReply_payload`: which commands carry
  their key, and wait for an answer;
* `Exact` and `wire_forms_exact`, all of it for every instruction and every body.
-/

namespace GroundControl.Instruction

variable {i : Instruction} {b : UInt8} {args body : Bytes}

/-! ### The byte of an instruction -/

/-- A byte that is read as an instruction is the byte of that instruction. -/
theorem byte_of_ofByte? (h : ofByte? b = some i) : i.byte = b := by
  apply UInt8.toNat_inj.1
  unfold ofByte? at h
  -- each branch that names an instruction fixes the number of the byte
  split at h <;> cases h <;> simp [byte, *]

theorem ofByte?_eq_some_iff : ofByte? b = some i ↔ i.byte = b :=
  ⟨byte_of_ofByte?, fun h => h ▸ ofByte?_byte i⟩

theorem ofByte?_eq_none_iff : ofByte? b = none ↔ ∀ i, byte i ≠ b := by
  rw [Option.eq_none_iff_forall_ne_some]
  exact forall_congr' fun i => not_congr ofByte?_eq_some_iff

/-! ### Encoded instructions -/

@[simp] theorem decode?_encode (i : Instruction) (args : Bytes) :
    decode? (i.encode args) = some (i, args) := by
  simp [encode, decode?]

/-- Nothing is lost in decoding, and nothing is made up. -/
theorem decode?_eq_some_iff : decode? body = some (i, args) ↔ i.encode args = body := by
  constructor
  · intro h
    cases body with
    | nil => cases h
    | cons b rest =>
      obtain ⟨j, hj, he⟩ := Option.map_eq_some_iff.1 h
      cases he
      rw [encode, byte_of_ofByte? hj]
  · rintro rfl
    exact decode?_encode i args

/-- What is not decoded is empty or begins with a byte that names no instruction. -/
theorem decode?_eq_none_iff :
    decode? body = none ↔ body = [] ∨ ∃ b args, body = b :: args ∧ ∀ i, byte i ≠ b := by
  cases body with
  | nil => simp [decode?]
  | cons b args =>
    have hb : decode? (b :: args) = none ↔ ofByte? b = none := Option.map_eq_none_iff
    rw [hb, ofByte?_eq_none_iff]
    constructor
    · intro h
      exact .inr ⟨b, args, rfl, h⟩
    · rintro (h | ⟨b', args', h, hn⟩)
      · cases h
      · cases h
        exact hn

/-! ### Commands -/

variable (i) (key : ReplyKey) (args)

@[simp] theorem body_payload : (i.payload key args).body = i.encode args := by
  unfold payload
  cases i.expectsReply <;> rfl

@[simp] theorem trafficClass_payload : (i.payload key args).trafficClass = i.trafficClass := by
  unfold payload
  cases i.expectsReply <;> rfl

theorem key_payload :
    (i.payload key args).key = if i.expectsReply then some key else none := by
  unfold payload
  cases i.expectsReply <;> rfl

theorem key_payload_eq_some_iff :
    (i.payload key args).key = some key ↔ i.expectsReply = true := by
  simp [key_payload]

theorem key_payload_eq_none_iff :
    (i.payload key args).key = none ↔ i.expectsReply = false := by
  simp [key_payload]

/-- A command waits for an answer exactly if its instruction is answered. -/
theorem expectsReply_payload : (i.payload key args).expectsReply = i.expectsReply := by
  cases h : i.expectsReply <;> simp [Payload.expectsReply, key_payload, h]

/-! ### Both directions -/

/-- What can be said of an instruction with its arguments and of any body that is received. -/
structure Exact (i : Instruction) (key : ReplyKey) (args received : Bytes) : Prop where
  /-- what was encoded is decoded -/
  decoded : decode? (i.encode args) = some (i, args)
  /-- a body from which the instruction is decoded is its wire form -/
  encoded : decode? received = some (i, args) → i.encode args = received
  /-- nothing is decoded exactly if there is no byte, or the first one names no instruction -/
  unknown : decode? received = none ↔
    received = [] ∨ ∃ b rest, received = b :: rest ∧ ∀ j, byte j ≠ b
  /-- a command is the wire form, in the class of its instruction -/
  body : (i.payload key args).body = i.encode args
  trafficClass : (i.payload key args).trafficClass = i.trafficClass
  /-- it carries its key if an answer is expected, and otherwise none -/
  keyed : (i.payload key args).key = some key ↔ i.expectsReply = true
  keyless : (i.payload key args).key = none ↔ i.expectsReply = false
  awaits : (i.payload key args).expectsReply = i.expectsReply

/-- **The wire forms of instructions are exact**: encoding and decoding undo each other, and a
command carries what it needs to be answered. -/
theorem wire_forms_exact (i : Instruction) (key : ReplyKey) (args received : Bytes) :
    Exact i key args received where
  decoded := decode?_encode i args
  encoded := decode?_eq_some_iff.1
  unknown := decode?_eq_none_iff
  body := body_payload i args key
  trafficClass := trafficClass_payload i args key
  keyed := key_payload_eq_some_iff i args key
  keyless := key_payload_eq_none_iff i args key
  awaits := expectsReply_payload i args key

end GroundControl.Instruction
