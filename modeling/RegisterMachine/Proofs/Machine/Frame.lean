import RegisterMachine.Proofs.Machine.Turn

/-!
# `RegisterMachine.Proofs.Machine.Frame` — what an instruction leaves as it is

A state holds something at each of its places, and the places are all there is to a state: two
states that hold the same everywhere are the same (`State.ext_content`).  Every register is a
place of its own, and one that does not exist holds nothing.

    instruction             footprint
    comment, label, end     none
    operation               its target register
    comparison              the flag
    jump                    the next line if it is taken, and else none
    call, return            the next line and the call stack
    message                 the output and the result

An instruction that succeeds leaves all places off its footprint as they are (`Effect.frame`).
The line that the machine is at and the count of its steps are on no footprint.
-/

namespace RegisterMachine

variable {V : Type}

/-! ## Places -/

/-- A place in the state where something is held -/
inductive Place where
  | ip
  | next
  | flag
  | register (name : String)
  | callStack
  | result
  | output
  | steps

/-- What can be held at a place -/
def Place.Content (V : Type) : Place → Type
  | .ip | .next | .steps => Nat
  | .flag => Flag
  | .register _ => Option V
  | .callStack => List Nat
  | .result => Value
  | .output => Array String

namespace State

/-- What a state holds at a place -/
def content (s : State V) : (place : Place) → place.Content V
  | .ip => s.ip
  | .next => s.next
  | .flag => s.flag
  | .register name => s.registers.get? name
  | .callStack => s.callStack
  | .result => s.result
  | .output => s.output
  | .steps => s.steps

/-- The states hold the same at all places but these -/
def AgreeBut (places : List Place) (s t : State V) : Prop :=
  ∀ place, place ∉ places → t.content place = s.content place

variable {s t : State V}

/-- States that hold the same at every place are the same -/
theorem ext_content (h : ∀ place, t.content place = s.content place) : t = s := by
  have hregisters : t.registers = s.registers :=
    Registers.ext_get? fun name => h (.register name)
  obtain ⟨ip, next, flag, registers, callStack, result, output, steps⟩ := t
  obtain rfl : ip = s.ip := h .ip
  obtain rfl : next = s.next := h .next
  obtain rfl : flag = s.flag := h .flag
  obtain rfl : registers = s.registers := hregisters
  obtain rfl : callStack = s.callStack := h .callStack
  obtain rfl : result = s.result := h .result
  obtain rfl : output = s.output := h .output
  obtain rfl : steps = s.steps := h .steps
  rfl

theorem agreeBut_nil (h : AgreeBut [] s t) : t = s := by
  apply ext_content
  intro place
  exact h place List.not_mem_nil

end State

/-! ## Footprints -/

/-- The places at which an instruction may leave something new, under a flag -/
def Instruction.footprint (flag : Flag) : Instruction → List Place
  | .comment | .label _ | .halt => []
  | .operate _ target => [.register target]
  | .compare _ _ => [.flag]
  | .jump condition _ => if condition.holds flag then [.next] else []
  | .call _ | .ret => [.next, .callStack]
  | .message _ => [.output, .result]

/-- No footprint has the line that the machine is at or the count of its steps -/
theorem Instruction.not_mem_footprint (flag : Flag) (i : Instruction) :
    Place.ip ∉ i.footprint flag ∧ Place.steps ∉ i.footprint flag := by
  cases i with
  | jump condition target =>
    rw [footprint]
    split <;> simp
  | comment | label | halt | operate | compare | call | ret | message => simp [footprint]

namespace Machine

variable [Cell V] {p : Program} {s t : State V} {i : Instruction}

/-- An instruction that succeeds leaves all that is off its footprint as it is -/
theorem Effect.frame (h : Effect p s i t) : State.AgreeBut (i.footprint s.flag) s t := by
  intro place hplace
  cases h with
  | comment | label | halt | pass => rfl
  | operate hv =>
    cases place with
    | register name =>
      have hname : name ≠ _ := fun heq => hplace (heq ▸ List.mem_cons_self)
      show (s.registers.insert _ _).get? name = s.registers.get? name
      rw [Registers.get?_insert, if_neg hname]
    | ip | next | flag | callStack | result | output | steps => rfl
  | compare hl hr =>
    cases place with
    | flag => exact absurd List.mem_cons_self hplace
    | ip | next | register | callStack | result | output | steps => rfl
  | jump hc hl =>
    rw [Instruction.footprint, if_pos hc] at hplace
    cases place with
    | next => exact absurd List.mem_cons_self hplace
    | ip | flag | register | callStack | result | output | steps => rfl
  | call | ret =>
    cases place with
    | next => exact absurd List.mem_cons_self hplace
    | callStack => exact absurd (List.mem_cons_of_mem _ List.mem_cons_self) hplace
    | ip | flag | register | result | output | steps => rfl
  | message ht =>
    cases place with
    | output => exact absurd List.mem_cons_self hplace
    | result => exact absurd (List.mem_cons_of_mem _ List.mem_cons_self) hplace
    | ip | next | flag | register | callStack | steps => rfl

/-- An instruction that succeeds in a state, whatever the state and wherever the instruction comes
from, leaves all that is off its footprint as it is: the line that the machine is at and the count
of its steps always, and everything if the footprint is empty.  On its footprint, a call stacks the
line behind it and goes to the one behind its label; a return goes to the latest line stacked and
takes it off; and a message puts the text that it makes its result behind the output -/
theorem exec_frame {p : Program} {s t : State Word} {i : Instruction} (h : exec p s i = .done t) :
    State.AgreeBut (i.footprint s.flag) s t ∧
    t.ip = s.ip ∧ t.steps = s.steps ∧
    (i.footprint s.flag = [] → t = s) ∧
    (∀ target, i = .call target →
      t.callStack = (s.ip + 1) :: s.callStack ∧
      ∃ index, p.findLabel target = .ok index ∧ t.next = index + 1) ∧
    (i = .ret → s.callStack = t.next :: t.callStack) ∧
    (∀ template, i = .message template →
      ∃ text, Template.interpolate template s.registers = .ok text ∧
        t.output = s.output.push text ∧ t.result = .text text) := by
  have heffect := effect_of_exec h
  have hframe := heffect.frame
  obtain ⟨hip, hsteps⟩ := i.not_mem_footprint s.flag
  refine ⟨hframe, hframe .ip hip, hframe .steps hsteps, ?_, ?_, ?_, ?_⟩
  · intro hempty
    rw [hempty] at hframe
    exact State.agreeBut_nil hframe
  · rintro target rfl
    cases heffect with
    | call hl => exact ⟨rfl, _, Program.findLabel_eq_ok_iff.2 hl, rfl⟩
  · rintro rfl
    cases heffect with
    | ret hs => exact hs
  · rintro template rfl
    cases heffect with
    | message ht => exact ⟨_, ht, rfl, rfl⟩

/-- One register of two is increased, in a state that no run comes to -/
theorem exec_frame_increase :
    ∃ (p : Program) (s t : State Word),
      s = { ip := 7, next := 3, flag := some .lt,
            registers := (Registers.empty.insert "a" 5).insert "b" 2,
            callStack := [4, 9], result := .outOfBounds, output := #["x"], steps := 2 } ∧
      exec p s (.operate (.unary .inc) "a") = .done t ∧
      State.AgreeBut [.register "a"] s t ∧ t.registers.get? "a" = some 6 := by
  let p : Program := ⟨#[], #[], [], .inl rfl, rfl, .nil⟩
  obtain ⟨s, hs⟩ : ∃ s : State Word,
      s = { ip := 7, next := 3, flag := some .lt,
            registers := (Registers.empty.insert "a" 5).insert "b" 2,
            callStack := [4, 9], result := .outOfBounds, output := #["x"], steps := 2 } := ⟨_, rfl⟩
  have h : exec p s (.operate (.unary .inc) "a") =
      .done { s with registers := s.registers.insert "a" 6 } := by
    subst hs
    rfl
  refine ⟨p, s, _, hs, h, (exec_frame h).1, ?_⟩
  rw [Registers.get?_insert, if_pos rfl]

end Machine

end RegisterMachine
