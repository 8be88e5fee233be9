/-
**What a run of a script blames.**

A script that does something wrong fails with a fault of the script, which names the cause and the
line.  That is how almost all failures of a run come about, and this module says which are left.
Six operations on values can fail outside of that: a whole number can have too many digits to be
written, a number can be too large for a double, a text or a list can be repeated too often for its
size to be counted, for it to be a text, or for the memory, and a value can be looked up that cannot
be a key.  Where nothing from outside takes part, a run of a compiled program fails with a fault of
the script or in one of these ways.

Main definitions:

* `Fault.isRuntime` — the faults of scripts that did something wrong;
* `Fault.IsSettled` — these, and those of operations on values;
* `Setting.IsBare` — settings in which nothing from outside takes part.

Main results:

* `Host.isBare` — an empty host takes no part;
* `Exec.Settles.pairing` — every part of a run fails in these ways;
* `compiled_run_settles` — **how runs of compiled programs fail**;
* `compiled_run_unhashable` — a script that fails without being blamed.
-/

import TriggerEngine.Proofs.Run.Failing
import TriggerEngine.Proofs.Syntax.Scripted

set_option autoImplicit false

namespace TriggerEngine

variable {ω τ α β : Type}

/-! ### Faults -/

namespace Fault

/-- Whether a fault says that a script did something wrong. -/
def isRuntime : Fault → Bool
  | .script cause _ => cause.family.lineage.contains .runtime
  | .raised family _ _ => family.lineage.contains .runtime
  | _ => false

/-- Whether a fault says that a script did something wrong, or comes from an operation on values. -/
def IsSettled (fault : Fault) : Prop :=
  fault.isRuntime = true ∨ fault.IsBlunt

theorem isRuntime_script (cause : Cause) (line : Option Int) :
    (Fault.script cause line).isRuntime = true := by
  cases cause <;> rfl

theorem isSettled_ofCause (n : Int) (cause : Cause) : (ofCause (.number n) cause).IsSettled := by
  unfold ofCause
  dsimp only
  split
  · exact .inl (isRuntime_script cause _)
  · exact .inr .digits

end Fault

namespace Node.IsScripted

variable {node : Node}

theorem exists_line (h : node.IsScripted) :
    ∃ n, node.line = .number n ∧ ∀ cause, node.faultAt cause = .ofCause (.number n) cause := by
  cases node with
  | member target name line =>
      obtain ⟨-, n, rfl⟩ := h
      exact ⟨n, rfl, fun _ => rfl⟩
  | torn => exact h.elim
  | other => exact h.elim
  | _ =>
      obtain ⟨n, hn⟩ := h
      exact ⟨n, hn, fun _ => hn ▸ rfl⟩

theorem isSettled_ofCause (h : node.IsScripted) (cause : Cause) :
    (Fault.ofCause node.line cause).IsSettled := by
  obtain ⟨n, hline, -⟩ := h.exists_line
  rw [hline]
  exact Fault.isSettled_ofCause n cause

theorem isSettled_faultAt (h : node.IsScripted) (cause : Cause) :
    (node.faultAt cause).IsSettled := by
  obtain ⟨n, -, hfault⟩ := h.exists_line
  rw [hfault]
  exact Fault.isSettled_ofCause n cause

end Node.IsScripted

/-! ### Nothing from outside -/

namespace Setting

/-- Whether nothing from outside takes part in a run: no faults are raised there that calls let
pass, inquiries and sequences do not fail, and nobody watches. -/
structure IsBare (env : Setting ω τ) (start : ω) : Prop where
  calls : ∀ {fault : Fault}, env.Raises start fault → fault.passes = false
  consults : ∀ {room inquiry h w}, env.Reaches start w →
    ∃ answer, (env.binding.consult room inquiry h w).1 = .ok answer
  items : ∀ {room id i h w}, env.Reaches start w →
    ∃ item, (env.binding.item? room id i h w).1 = .ok item
  unwatched : env.watcher = none

end Setting

namespace Host

variable {host : Host}

theorem isEmpty_of_reaches {limits : Limits} {context : Value} (hempty : host.IsEmpty) {w : Host}
    (hw : Setting.Reaches (⟨Host.binding, limits, none, context⟩ : Setting Host τ) host w) :
    w.IsEmpty := by
  induction hw with
  | start => exact hempty
  | turn hchange _ ih => exact Seat.Keeps.changes (fun _ => keeps_isEmpty) hchange ih
  | write name v _ ih => exact ⟨ih.objects, ih.routines, ih.code⟩
  | watch room node p h t hwatcher => cases hwatcher

namespace IsEmpty

variable (hempty : host.IsEmpty)

include hempty

theorem callRoutine (id : Nat) (via : String) (list : Value) (args : List Value) (context : Value)
    (h : Heap) :
    (Host.seat.callRoutine Host.serve id via list args context h host).1 = .ok .null := by
  have hroutine : host.routine id = ⟨"", "", Routine.constant .null⟩ := by
    simp [Host.routine, hempty.routines]
  simp only [Seat.callRoutine, Host.seat, id_eq, hroutine]
  rfl

theorem readAttribute (id : Nat) (name : String) :
    host.readAttribute id name = .error (noAttribute name) := by
  simp [Host.readAttribute, hempty.objects]

theorem item (id i : Nat) (h : Heap) :
    Host.seat.item? Host.serve id i h host = (.ok none, h, host) := by
  have hcode : (Host.seat.host host).code (.item id i) = none := hempty.code _
  have hitem : (Host.seat.host host).item? id i = .ok none := by
    show host.item? id i = .ok none
    simp [Host.item?, hempty.objects]
  simp only [Seat.item?, Seat.runCode, hcode, hitem]

theorem exists_selected (method : Method) (c : Capability) :
    ∃ f, host.selected method c = .ok f := by
  have hmethod : ∃ f?, host.methodOf method c = .ok f? := by
    cases c with
    | routine id style => exact ⟨_, rfl⟩
    | value v =>
        have hnone : host.findAttribute v method.name = .ok none := by
          cases v with
          | object id sort =>
              rw [findAttribute, hempty.readAttribute]
              rfl
          | _ => rfl
        rw [methodOf, hnone]
        exact ⟨_, rfl⟩
  obtain ⟨f?, hf⟩ := hmethod
  rw [selected, hf]
  cases f? <;> exact ⟨_, rfl⟩

theorem consult (inquiry : Inquiry) (h : Heap) :
    Host.seat.consult Host.serve inquiry h host = (.ok none, h, host) := by
  have hcode : (Host.seat.host host).code inquiry = none := hempty.code _
  have hflaw : Host.seat.flaw? inquiry host = none := by
    cases inquiry with
    | lookup role name =>
        show ((host.registry role).entries.get? name).bind _ = none
        cases (host.registry role).entries.get? name with
        | none => rfl
        | some c =>
            obtain ⟨f, hf⟩ := hempty.exists_selected (host.registry role).sort.method c
            have hf' : (Host.seat.host host).selected
                ((Host.seat.host host).registry role).sort.method c = .ok f := hf
            simp only [Option.bind_some, hf']
    | _ => rfl
  simp only [Seat.consult, Seat.runCode, hcode, hflaw]

theorem invoke (room : Nat) (role : Role) (name : String) (args : List Value) (context : Value)
    (h : Heap) :
    FailsOnly (fun fault => fault.passes = false)
      (Host.seat.invoke Host.serve room role name args context h host).1 := by
  unfold Seat.invoke
  dsimp only
  split
  · exact .error rfl
  · rename_i c _
    obtain ⟨f, hf⟩ := hempty.exists_selected ((Host.seat.host host).registry role).sort.method c
    have hf' : (Host.seat.host host).selected _ c = .ok f := hf
    rw [Seat.callWithin, hf']
    unfold Seat.callCallee
    dsimp only
    split
    · rw [hempty.callRoutine]
      exact .ok _
    · rw [Seat.callValue, hempty.callRoutine]
      exact .ok _
    · exact fun fault hfault =>
        Fault.passes_of_isPlain (Member.failsPlainly_call _ _ _ _ _ _ fault hfault)
    · exact .error rfl
    · exact .error rfl

end IsEmpty

theorem isBare (hempty : host.IsEmpty) (limits : Limits) (context : Value) :
    Setting.IsBare (⟨Host.binding, limits, none, context⟩ : Setting Host τ) host where
  calls hraises := by
    cases hraises with
    | invoke hw hfault => exact (isEmpty_of_reaches hempty hw).invoke _ _ _ _ _ _ _ hfault
    | call hw hfault =>
        cases ((isEmpty_of_reaches hempty hw).callRoutine _ _ _ _ _ _).symm.trans hfault
    | member hw hfault =>
        cases ((isEmpty_of_reaches hempty hw).readAttribute _ _).symm.trans hfault
        rfl
    | consult hw hfault =>
        cases (congrArg Prod.fst ((isEmpty_of_reaches hempty hw).consult _ _)).symm.trans hfault
    | item hw hfault =>
        cases (congrArg Prod.fst ((isEmpty_of_reaches hempty hw).item _ _ _)).symm.trans hfault
    | endless hw hendless =>
        obtain ⟨α, take, a, hnever⟩ := hendless
        exact (hnever _ (.ends ((isEmpty_of_reaches hempty hw).item _ _ _))).elim
    | watch hwatcher => cases hwatcher
  consults hw := ⟨none, congrArg Prod.fst ((isEmpty_of_reaches hempty hw).consult _ _)⟩
  items hw := ⟨none, congrArg Prod.fst ((isEmpty_of_reaches hempty hw).item _ _ _)⟩
  unwatched := rfl

end Host

/-! ### Computations -/

namespace Exec

variable {env : Setting ω τ} {start : ω}

theorem tolerates_isSettled (hbare : env.IsBare start) : Tolerates env start Fault.IsSettled where
  blunt := .inr
  passed hraises hpasses := by
    rw [hbare.calls hraises] at hpasses
    cases hpasses
  consult hw hfault := by
    obtain ⟨answer, hanswer⟩ := hbare.consults hw
    cases hanswer.symm.trans hfault
  item hw hfault := by
    obtain ⟨item, hitem⟩ := hbare.items hw
    cases hitem.symm.trans hfault
  watch hwatcher _ _ := by
    rw [hbare.unwatched] at hwatcher
    cases hwatcher

/-- Every part of a run in which nothing from outside takes part fails with a fault of the script or
of an operation on values. -/
def Settles.pairing (hbare : env.IsBare start) : Pairing env env.limits env.watcher :=
  Fails.pairing (tolerates_isSettled hbare) Node.IsScripted (fun h => h.isSettled_ofCause)
    (fun h => h.isSettled_faultAt) fun h => h.1

end Exec

/-! ### Runs -/

theorem Fault.IsSettled.surfaced {fault : Fault} (h : fault.IsSettled) :
    (Interpreter.surfaced fault).isRuntime = true ∨
      (Interpreter.surfaced fault).IsBlunt ∧
        ∀ text, Interpreter.surfaced fault ≠ .plain .recursion text := by
  rcases h with hruntime | hblunt
  · cases fault with
    | script cause line => exact .inl hruntime
    | raised family text parts => exact .inl hruntime
    | _ => cases hruntime
  · cases hblunt with
    | noRoom text => exact .inl rfl
    | digits => exact .inr ⟨.digits, nofun⟩
    | number trouble => exact .inr ⟨.number trouble, by simp [Interpreter.surfaced, Fault.ofTrouble]⟩
    | count => exact .inr ⟨.count, by simp [Interpreter.surfaced]⟩
    | length => exact .inr ⟨.length, by simp [Interpreter.surfaced]⟩
    | memory => exact .inr ⟨.memory, by simp [Interpreter.surfaced]⟩
    | key v => exact .inr ⟨.key v, by simp [Interpreter.surfaced, Fault.unhashable]⟩

/-- **How runs of compiled programs fail.**  On a host without objects and routines, which runs no
code of its own, and with nobody watching, a run of a compiled program that fails says what the
script did wrong, or it fails in one of the ways in which operations on values do, but not for want
of room. -/
theorem compiled_run_settles {file source : String} {program : Program}
    (hcompile : compile file source = .ok program) {host : Host} (hobjects : host.objects = #[])
    (hroutines : host.routines = #[]) (hcode : ∀ inquiry, host.code inquiry = none)
    (limits : Limits) (context : Value) (room : Nat) (h : Heap) (locals : Table Value) (t : τ)
    (fault : Fault)
    (hfault : (Interpreter.run ⟨Host.binding, limits, none, context⟩ room program
      ⟨h, host, .start locals, t⟩).1 = .error fault) :
    fault.isRuntime = true ∨ fault.IsBlunt ∧ ∀ text, fault ≠ .plain .recursion text := by
  have hbare : Setting.IsBare (⟨Host.binding, limits, none, context⟩ : Setting Host τ) host :=
    Host.isBare ⟨hobjects, hroutines, hcode⟩ limits context
  have hsettles := (Exec.Settles.pairing hbare).execAll program false
    (fun _ => areStatements_of_compile hcompile) (scripted_of_compile hcompile) room
  obtain ⟨-, hfaults⟩ := hsettles (Interpreter.inPhase .running ⟨h, host, .start locals, t⟩) .start
  rw [Interpreter.run_of_idle rfl] at hfault
  obtain ⟨raised, hraised, rfl⟩ := Interpreter.error_of_concluded hfault
  rcases hfaults raised hraised with hsettled | ⟨hlooped, -⟩
  · exact hsettled.surfaced
  · cases hlooped

/-- A text that is to be repeated more often than can be counted. -/
theorem compiled_run_settles_repeating :
    let line : Line := .number 1
    let program : Program :=
      [.assign (.ident "x" line)
        (.binary .mul (.literal .string (.str "a") line 5)
          (.literal .number (.int 99999999999999999999) line 11) line) line]
    let ran := Interpreter.run (⟨Host.binding, Config.default.limits, none, .null⟩ : Setting Host Unit)
      994 program ⟨{}, {}, .start .empty, ()⟩
    compile "text" "x = \"a\" * 99999999999999999999" = .ok program ∧
      ∃ fault, ran.1 = .error fault ∧
        (fault.isRuntime = true ∨ fault.IsBlunt ∧ ∀ text, fault ≠ .plain .recursion text) := by
  intro line program ran
  have hcompile : compile "text" "x = \"a\" * 99999999999999999999" = .ok program := by cbv
  have hfault : ran.1 =
      .error (.plain .overflow "cannot fit 'int' into an index-sized integer") := rfl
  exact ⟨hcompile, _, hfault,
    compiled_run_settles hcompile rfl rfl (fun _ => rfl) _ _ _ _ _ _ _ hfault⟩

/-- **A script that fails without being blamed**: a list is looked up in a mapping. -/
theorem compiled_run_unhashable :
    let line : Line := .number 1
    let program : Program :=
      [.assign (.ident "x" line)
        (.index (.ident "m" line) (.list [.literal .number (.int 1) line 8] line) line) line]
    let heap : Heap := { maps := #[#[(.text "a", .whole 1)]] }
    let ran := Interpreter.run (⟨Host.binding, Config.default.limits, none, .null⟩ : Setting Host Unit)
      994 program ⟨heap, {}, .start ⟨[("m", .map 0)]⟩, ()⟩
    compile "lookup" "x = m[[1]]" = .ok program ∧
      ran.1 = .error (.plain .type "unhashable type: 'list'") ∧
      Fault.isRuntime (.plain .type "unhashable type: 'list'") = false := by
  intro line program heap ran
  exact ⟨by cbv, rfl, rfl⟩

end TriggerEngine
