import FlowHost.Instance
import FlowHost.Native.Stock
import FlowHost.Proofs.Casting
import FlowHost.Proofs.Resolution
import FlowHost.Proofs.Run

/-!
# Calls of native functions

A guest that calls a native function hands over its arguments bit for bit, and gets back what the handler returned, each
value cast to the type that is declared for its place. A handler that fails, or returns another number of values than
declared, gives the guest nothing: it traps, what was done to the memory until then stays done, and the call of an
export that is under way is a failed execution.

* `Value.Carries`: the same value on both sides of the border.
* `Machine.call_native`: a call by name is a call of the function that has the name.
* `NativeFunction.callNative_answered`: what becomes of a call, by what the handler did.
* `NativeFunction.call_carries`: **calls are faithful, and give all results or none.**
-/

namespace FlowHost

namespace Value

/-- The bits of a value, as a number. -/
def word : Value → Nat
  | i32 v => v.toNat
  | i64 v => v.toNat
  | f32 v => v.bits.toNat
  | f64 v => v.bits.toNat

/-- **The same value on both sides of the border**: of the same type, and with the same bits. -/
structure Carries (v : Value) (s : Scalar) : Prop where
  type : s.type = v.type.scalarType
  word : s.word = v.word

variable {v : Value} {s : Scalar}

/-- A value crosses the border as the scalar with its bits. -/
theorem carries_toScalar (v : Value) : v.Carries v.toScalar := by
  cases v with
  | i32 n => exact ⟨rfl, congrArg UInt32.toNat n.toUInt32_toInt32⟩
  | i64 n => exact ⟨rfl, congrArg UInt64.toNat n.toUInt64_toInt64⟩
  | f32 x => exact ⟨rfl, rfl⟩
  | f64 x => exact ⟨rfl, rfl⟩

/-- There is no other scalar that is the same. -/
theorem carries_iff : v.Carries s ↔ s = v.toScalar := by
  refine ⟨fun h => ?_, fun h => h ▸ v.carries_toScalar⟩
  rw [← Scalar.ofWord_word s, ← Scalar.ofWord_word v.toScalar, h.type, h.word, v.carries_toScalar.type,
    v.carries_toScalar.word]

/-- The scalars that are the same as some values are theirs. -/
theorem forall₂_carries_iff {vs : List Value} {ss : List Scalar} :
    List.Forall₂ Carries vs ss ↔ ss = vs.map toScalar := by
  induction vs generalizing ss with
  | nil => simp
  | cons v vs ih =>
    cases ss with
    | nil => simp
    | cons s ss => rw [List.forall₂_cons, ih, carries_iff, List.map_cons, List.cons.injEq]

end Value

namespace ValueType

/-- A value that is given for a type has that type. -/
theorem type_ofScalar (ty : ValueType) (v : Scalar) : (ty.ofScalar v).type = ty := by
  have htype := Scalar.type_cast v ty.scalarType
  unfold ValueType.ofScalar
  cases ty with
  | i32 => cases hv : v.cast .i32 <;> simp_all [scalarType, Scalar.type, Value.ofScalar, Value.type]
  | i64 => cases hv : v.cast .i64 <;> simp_all [scalarType, Scalar.type, Value.ofScalar, Value.type]
  | f32 => cases hv : v.cast .f32 <;> simp_all [scalarType, Scalar.type, Value.ofScalar, Value.type]
  | f64 => cases hv : v.cast .f64 <;> simp_all [scalarType, Scalar.type, Value.ofScalar, Value.type]

/-- **A value that is given for a type is the cast**, bit for bit, and never the zero that stands for no value. -/
theorem ofScalar_carries (ty : ValueType) (v : Scalar) : (ty.ofScalar v).Carries (v.cast ty.scalarType) := by
  have hcarries := Value.carries_toScalar (ty.ofScalar v)
  rwa [ty.toScalar_ofScalar] at hcarries

end ValueType

/-- **What a guest receives**: in order, for each declared type the value that was returned in its place, cast to the
type. There are as many of each. -/
inductive Received : List ValueType → List Scalar → List Value → Prop
  | nil : Received [] [] []
  | cons {ty : ValueType} {v : Scalar} {r : Value} {types : List ValueType} {returned : List Scalar}
      {results : List Value} (type : r.type = ty) (carries : r.Carries (v.cast ty.scalarType))
      (rest : Received types returned results) : Received (ty :: types) (v :: returned) (r :: results)

/-- As many values as types are received. -/
theorem received_zipWith {types : List ValueType} {returned : List Scalar} (h : returned.length = types.length) :
    Received types returned (List.zipWith ValueType.ofScalar types returned) := by
  induction types generalizing returned with
  | nil =>
    rw [List.eq_nil_of_length_eq_zero h]
    exact .nil
  | cons ty types ih =>
    cases returned with
    | nil => cases h
    | cons v returned => exact .cons (ty.type_ofScalar v) (ty.ofScalar_carries v) (ih (Nat.succ.inj h))

namespace NativeFunction

variable {f : NativeFunction} {device : String} {arguments : List Value} {returned : List Scalar}
  {before state : CallState} {e : Error}

/-- As many results as declared are given, each for the type of its place. -/
theorem invoke_ok (h : f.handler device (arguments.map Value.toScalar) before = .ok returned state)
    (hcount : returned.length = f.signature.results.length) :
    f.invoke device arguments before = .ok (List.zipWith ValueType.ofScalar f.signature.results returned) state := by
  simp only [invoke, bind, EStateM.bind, h, if_pos hcount, pure, EStateM.pure]

/-- Another number of results fails the call. -/
theorem invoke_miscounted (h : f.handler device (arguments.map Value.toScalar) before = .ok returned state)
    (hcount : returned.length ≠ f.signature.results.length) :
    f.invoke device arguments before =
      .error (.registration (.wrongCount f.name returned.length f.signature.results.length)) state := by
  simp only [invoke, bind, EStateM.bind, h, if_neg hcount]
  rfl

/-- And so does a failure of the handler. -/
theorem invoke_error (h : f.handler device (arguments.map Value.toScalar) before = .error e state) :
    f.invoke device arguments before = .error e state := by
  simp only [invoke, bind, EStateM.bind, h]

end NativeFunction

namespace Machine

/-- The machine once a native function has left its state. -/
def withNative (m : Machine) (state : CallState) : Machine :=
  { guest := { m.guest with memory := some state.memory }
    host := { m.host with output := state.output } }

variable {σ : Surroundings} {m : Machine} {f : NativeFunction}

/-- **A call by name is a call of the function that has the name.** -/
theorem call_native (h : σ.natives.Sound) (hf : f ∈ σ.natives.functions) (arguments : List Value) :
    m.call σ f.name arguments = m.callNative σ f arguments := by
  rw [Linker.call_eq h none, Linker.call, Linker.find?_native h hf]
  rfl

variable {memory : Memory} {arguments results : List Value} {state : CallState} {e : Error}

/-- The results of a call are the guest's. -/
theorem callNative_ok (hm : m.guest.memory = some memory) (hknown : m.guest.isKnown = true)
    (h : f.invoke σ.deviceId arguments ⟨memory, m.host.output⟩ = .ok results state) :
    m.callNative σ f arguments = (some results, m.withNative state) := by
  unfold callNative
  rw [hm]
  dsimp only
  rw [if_pos hknown, h]
  rfl

/-- **A call that fails is a trap**, on the memory as the call left it. -/
theorem callNative_error (hm : m.guest.memory = some memory) (hknown : m.guest.isKnown = true)
    (h : f.invoke σ.deviceId arguments ⟨memory, m.host.output⟩ = .error e state) :
    m.callNative σ f arguments = (none, m.withNative state) := by
  unfold callNative
  rw [hm]
  dsimp only
  rw [if_pos hknown, h]
  rfl

end Machine

namespace NativeFunction

variable {f : NativeFunction} {σ : Surroundings} {m : Machine} {memory : Memory}

/-- **What becomes of a call**, by what the handler did: all results or none, on what the handler left. -/
inductive Answered (f : NativeFunction) (m : Machine) :
    EStateM.Result Error CallState (List Scalar) → Option (List Value) × Machine → Prop
  | received {returned : List Scalar} {results : List Value} {state : CallState}
      (h : Received f.signature.results returned results) :
      Answered f m (.ok returned state) (some results, m.withNative state)
  | miscounted {returned : List Scalar} {state : CallState} (h : returned.length ≠ f.signature.results.length) :
      Answered f m (.ok returned state) (none, m.withNative state)
  | failed {e : Error} {state : CallState} : Answered f m (.error e state) (none, m.withNative state)

/-- **Every call is answered in one of these ways.** -/
theorem callNative_answered (f : NativeFunction) (hm : m.guest.memory = some memory) (hknown : m.guest.isKnown = true)
    (arguments : List Value) :
    Answered f m (f.handler σ.deviceId (arguments.map Value.toScalar) ⟨memory, m.host.output⟩)
      (m.callNative σ f arguments) := by
  cases hhandler : f.handler σ.deviceId (arguments.map Value.toScalar) ⟨memory, m.host.output⟩ with
  | error e state =>
    rw [Machine.callNative_error hm hknown (invoke_error hhandler)]
    exact .failed
  | ok returned state =>
    by_cases hcount : returned.length = f.signature.results.length
    · rw [Machine.callNative_ok hm hknown (invoke_ok hhandler hcount)]
      exact .received (received_zipWith hcount)
    · rw [Machine.callNative_error hm hknown (invoke_miscounted hhandler hcount)]
      exact .miscounted hcount

/-- A run that calls a function and gets nothing comes to an end there. -/
theorem enter_trapped {m' m₀ : Machine} {name function : String} {body : Body} {arguments passed : List Value}
    {next : List Value → Behaviour}
    (hreach : Behaviour.Reaches σ (body passed, MachineM.recordEntry σ name passed m₀)
      (.call function arguments next, m))
    (hcall : m.call σ function arguments = (none, m')) :
    MachineM.enter σ name body passed m₀ =
      .error (.execution (name ++ " trapped")) (MachineM.recordExit σ name none m') := by
  have hrun : (body passed).run σ (MachineM.recordEntry σ name passed m₀) = (none, m') :=
    (Behaviour.run_eq_of_reaches hreach).trans (Behaviour.run_eq_of_move (.trapped hcall))
  unfold MachineM.enter
  rw [hrun]

/-- **Calls of native functions are faithful, and give all results or none.** Whatever functions were offered, a call of
one of them hands its handler the guest's arguments in order and bit for bit. If the handler returns as many values as
declared, the guest goes on with each of them, in order, cast to its declared type. If it fails or returns another
number of values, the guest receives nothing: what the handler did to the memory stays done, and the call of an export
that is under way, whichever it is, is a failed execution. -/
theorem call_carries {fs : List NativeFunction} (hnatives : σ.natives = .ofOffers fs) (hf : f ∈ σ.natives.functions)
    (hm : m.guest.memory = some memory) (hknown : m.guest.isKnown = true) (arguments : List Value) :
    (∃ scalars, List.Forall₂ Value.Carries arguments scalars) ∧
      (∀ scalars, List.Forall₂ Value.Carries arguments scalars →
        Answered f m (f.handler σ.deviceId scalars ⟨memory, m.host.output⟩) (m.call σ f.name arguments)) ∧
      (∀ results m' next x, m.call σ f.name arguments = (some results, m') →
        Behaviour.Reaches σ x (.call f.name arguments next, m) → x.1.run σ x.2 = (next results).run σ m') ∧
      ∀ m' next name body passed m₀, m.call σ f.name arguments = (none, m') →
        Behaviour.Reaches σ (body passed, MachineM.recordEntry σ name passed m₀) (.call f.name arguments next, m) →
          MachineM.enter σ name body passed m₀ =
            .error (.execution (name ++ " trapped")) (MachineM.recordExit σ name none m') := by
  have hsound : σ.natives.Sound := hnatives ▸ NativeTable.sound_ofOffers fs
  refine ⟨⟨_, Value.forall₂_carries_iff.2 rfl⟩, ?_, ?_, ?_⟩
  · intro scalars hscalars
    rw [Machine.call_native hsound hf, Value.forall₂_carries_iff.1 hscalars]
    exact f.callNative_answered hm hknown arguments
  · intro results m' next x hcall hreach
    exact (Behaviour.run_eq_of_reaches hreach).trans (Behaviour.run_eq_of_move (.call hcall))
  · intro m' next name body passed m₀ hcall hreach
    exact enter_trapped hreach hcall

end NativeFunction

namespace Sample

/-- A function that is given a double and returns it as a word, and one that fails. -/
def echoes : List NativeFunction :=
  [⟨"eea_fn_echo", ⟨[.f64], [.i32]⟩, Handler.arguments⟩, ⟨"eea_fn_refuse", ⟨[], [.i32]⟩, Handler.refuse⟩]

/-- An instance to which both are offered. -/
def echoing : Surroundings := ⟨0, "device", .memory, .ofOffers echoes, .standard⟩

/-- A guest with a page of memory. -/
def caller : Machine := ⟨⟨some (Memory.filled pageSize 0), none, true, .empty, [], []⟩, .fresh ⟨⟨[]⟩, none⟩⟩

end Sample

namespace NativeFunction

open Sample

/-- Two and a half come back as two. A function that fails gives nothing, and fails the export that calls it. -/
theorem call_carries_echo :
    let refusal : Body := fun _ => .call "eea_fn_refuse" [] fun _ => .done 0
    let started := MachineM.recordEntry echoing "eea_start" [] caller
    (∀ f ∈ echoes, f ∈ echoing.natives.functions ∧ ∀ arguments scalars, List.Forall₂ Value.Carries arguments scalars →
      Answered f caller (f.handler "device" scalars ⟨Memory.filled pageSize 0, .empty⟩)
        (caller.call echoing f.name arguments)) ∧
      (caller.call echoing "eea_fn_echo" [.f64 ⟨0x4004000000000000⟩]).1 = some [.i32 2] ∧
      (started.call echoing "eea_fn_refuse" []).1 = none ∧
      MachineM.enter echoing "eea_start" refusal [] caller =
        .error (.execution "eea_start trapped")
          (MachineM.recordExit echoing "eea_start" none (started.call echoing "eea_fn_refuse" []).2) := by
  intro refusal started
  have hnatives : echoing.natives = .ofOffers echoes := rfl
  have hmemory : caller.guest.memory = some (Memory.filled pageSize 0) := rfl
  have hmem : ∀ f ∈ echoes, f ∈ echoing.natives.functions := by
    intro f hf
    refine NativeTable.mem_ofOffers.2 ?_
    obtain rfl | hf := List.mem_cons.1 hf
    · exact ⟨by decide, rfl⟩
    · obtain rfl := List.mem_singleton.1 hf
      exact ⟨by decide, rfl⟩
  have hrefuse : ⟨"eea_fn_refuse", ⟨[], [.i32]⟩, Handler.refuse⟩ ∈ echoing.natives.functions :=
    hmem _ (List.mem_cons_of_mem _ List.mem_cons_self)
  have hnone : (started.call echoing "eea_fn_refuse" []).1 = none := by decide +kernel
  refine ⟨fun f hf => ⟨hmem f hf, fun arguments => ?_⟩, by decide +kernel, hnone, ?_⟩
  · exact (call_carries hnatives (hmem f hf) hmemory rfl arguments).2.1
  · have hstarted : started.guest.memory = some (Memory.filled pageSize 0) := hmemory
    exact (call_carries hnatives hrefuse hstarted rfl []).2.2.2 _ _ "eea_start" refusal [] caller
      (Prod.ext hnone rfl) .refl

end NativeFunction

end FlowHost
