/-
**Programs that cannot go wrong in their form.**

A program that was compiled is well-formed, and a run of a well-formed program keeps to well-formed
nodes.  No request to a loop gets out of such a run, and the faults about the form of a tree do not
come up in it; one that does was made outside, by the host or by the watcher.

A request to a loop that is raised inside of a routine or a member function is wrapped into a fault
of the script before a loop can hear it.  Not so one that the host makes when it is asked for
something besides a call, or one that is a fault of the engine too: where there are none of those,
the requests come from the statements that make them, and from nowhere else.

Main definitions:

* `Setting.LeavesLoopsAlone` — requests to loops are left to the script;
* `Exec.Safe` — computations that fail with permitted faults, and that do the same under two
  watchers which agree on well-formed nodes.

Main results:

* `Exec.Safe.coupling` — the steps of a run are safe;
* `compiled_run_safe` — **runs of compiled programs are safe**;
* `compiled_run_unsafe` — but not if the host makes requests outside of calls.
-/

import TriggerEngine.Proofs.Run.Outside
import TriggerEngine.Proofs.Syntax.Output

set_option autoImplicit false

namespace TriggerEngine

variable {ω τ α β : Type}

/-! ### Requests from outside -/

namespace Setting

/-- Whether requests to loops are left to the script: the watcher, sequences and inquiries make
none, and neither do calls that are the engine's own faults as well. -/
structure LeavesLoopsAlone (env : Setting ω τ) (start : ω) : Prop where
  /-- The watcher makes no requests. -/
  watch : ∀ {watcher : Watcher ω τ} {room node p h w t fault}, env.watcher = some watcher →
    env.Reaches start w → (watcher room node p h w t).1 = .error fault → fault.isSignal = false
  /-- Sequences make no requests. -/
  item : ∀ {room id i h w fault}, env.Reaches start w →
    (env.binding.item? room id i h w).1 = .error fault → fault.isSignal = false
  /-- No request is made at an inquiry. -/
  consult : ∀ {room inquiry h w fault}, env.Reaches start w →
    (env.binding.consult room inquiry h w).1 = .error fault → fault.isSignal = false
  /-- What is made outside is not both, a request and one of the engine's own faults. -/
  passed : ∀ {fault}, env.Raises start fault → fault.isEngine = true → fault.isSignal = false

/-- The faults with which a part of a run may fail, inside a loop or outside. -/
def Permits (env : Setting ω τ) (start : ω) (looped : Bool) (fault : Fault) : Prop :=
  (looped = false → fault.isSignal = false) ∧ (fault.isStructural = true → env.Raises start fault)

variable {env : Setting ω τ} {start : ω} {fault : Fault}

theorem Permits.of_isOrdinary {looped : Bool} (h : fault.isOrdinary = true) :
    env.Permits start looped fault := by
  obtain ⟨hsignal, hstructural, -⟩ := Fault.isOrdinary_iff.1 h
  refine ⟨fun _ => hsignal, fun hform => ?_⟩
  rw [hstructural] at hform
  cases hform

theorem Permits.of_isFor {looped : Bool} {cause : Cause} (h : fault.IsFor cause)
    (hcause : cause.isStructural = false) : env.Permits start looped fault := by
  refine ⟨fun _ => h.isSignal, fun hform => ?_⟩
  rw [h.isStructural hcause] at hform
  cases hform

theorem Permits.mono (h : env.Permits start false fault) (looped : Bool) :
    env.Permits start looped fault :=
  ⟨fun _ => h.1 rfl, h.2⟩

theorem LeavesLoopsAlone.admits (h : env.LeavesLoopsAlone start) :
    env.Admits start (env.Permits start false) where
  blunt hblunt := .of_isOrdinary hblunt.isOrdinary
  passed {fault} hraises hpasses := by
    refine ⟨fun _ => ?_, fun _ => hraises⟩
    cases fault with
    | leave | next => exact h.passed hraises hpasses
    | _ => rfl
  consult hw hfault := ⟨fun _ => h.consult hw hfault, fun _ => .consult hw hfault⟩
  item hw hfault := ⟨fun _ => h.item hw hfault, fun _ => .item hw hfault⟩

end Setting

namespace Exec

/-! ### Safe computations -/

/-- Whether two computations do the same in the worlds that a run can come to, stay in these
worlds, and fail with faults only that are permitted. -/
def Safe (env : Setting ω τ) (start : ω) (looped : Bool) (x₁ x₂ : Exec ω τ α) : Prop :=
  ∀ s, env.Reaches start s.world → x₂.runFrom s = x₁.runFrom s ∧
    env.Reaches start (x₁.runFrom s).2.world ∧
    ∀ fault, (x₁.runFrom s).1 = .error (.fault fault) → env.Permits start looped fault

namespace Safe

variable {S : Scene ω} {w₁ w₂ : Option (Watcher ω τ)} {env : Setting ω τ} {start : ω}
  {looped : Bool}

theorem of_ok {x : Exec ω τ α} (h : ∀ s, ∃ a s', x.runFrom s = (.ok a, s') ∧ s'.world = s.world) :
    Safe env start looped x x := by
  intro s hs
  obtain ⟨a, s', hrun, hworld⟩ := h s
  rw [hrun]
  exact ⟨rfl, hworld ▸ hs, nofun⟩

theorem fail {fault : Fault} (h : env.Permits start looped fault) :
    Safe env start looped (Exec.fail fault : Exec ω τ α) (Exec.fail fault) := by
  intro s hs
  refine ⟨rfl, hs, fun raised hraised => ?_⟩
  cases hraised
  exact h

theorem bind {x₁ x₂ : Exec ω τ α} {f₁ f₂ : α → Exec ω τ β} (hx : Safe env start looped x₁ x₂)
    (hf : ∀ a, Safe env start looped (f₁ a) (f₂ a)) :
    Safe env start looped (x₁ >>= f₁) (x₂ >>= f₂) := by
  intro s hs
  obtain ⟨hsame, hreach, hfaults⟩ := hx s hs
  rcases hrun : x₁.runFrom s with ⟨stop | a, s'⟩
  · rw [hrun] at hsame hreach hfaults
    rw [runFrom_bind_of_error hrun, runFrom_bind_of_error hsame]
    refine ⟨rfl, hreach, fun fault hfault => ?_⟩
    cases hfault
    exact hfaults fault rfl
  · rw [hrun] at hsame hreach
    rw [runFrom_bind_of_ok hrun, runFrom_bind_of_ok hsame]
    exact hf a s' hreach

theorem onWorld {f : Heap → ω → Except Fault α × Heap × ω}
    (hf : Replies env start (env.Permits start looped) f) :
    Safe env start looped (Exec.onWorld f : Exec ω τ α) (Exec.onWorld f) := by
  intro ⟨h, w, p, t⟩ hw
  obtain ⟨hreach, hfaults⟩ := hf h w hw
  rw [runFrom_onWorld]
  refine ⟨rfl, hreach, fun fault hfault => hfaults fault ?_⟩
  exact error_of_mapError hfault

theorem deeper {most : Nat} {limit : Unit → Fault} {x₁ x₂ : Exec ω τ α}
    (hlimit : env.Permits start looped (limit ())) (hx : Safe env start looped x₁ x₂) :
    Safe env start looped (Exec.deeper most limit x₁) (Exec.deeper most limit x₂) := by
  intro ⟨h, w, p, t⟩ hw
  rw [runFrom_deeper, runFrom_deeper]
  dsimp only
  split
  · refine ⟨rfl, hw, fun fault hfault => ?_⟩
    cases hfault
    exact hlimit
  · obtain ⟨hsame, hreach, hfaults⟩ := hx ⟨h, w, { p with depth := p.depth + 1 }, t⟩ hw
    rw [hsame]
    exact ⟨rfl, hreach, hfaults⟩

theorem round {x₁ x₂ : Exec ω τ Unit} (hx : Safe env start true x₁ x₂) :
    Safe env start looped (Exec.round x₁) (Exec.round x₂) := by
  intro s hs
  obtain ⟨hsame, hreach, hfaults⟩ := hx s hs
  rw [runFrom_round, runFrom_round, hsame]
  refine ⟨rfl, hreach, fun fault hfault => ?_⟩
  generalize (x₁.runFrom s).1 = result at hfaults hfault
  match result with
  | .ok () => cases hfault
  | .error .abort => cases hfault
  | .error (.fault raised) =>
      cases raised with
      | leave | next => cases hfault
      | _ =>
          cases hfault
          exact ⟨fun _ => rfl, (hfaults _ rfl).2⟩

theorem error_of_answered {answer : Except Fault Bool} {fault : Fault}
    (h : answered answer = .error (.fault fault)) : answer = .error fault := by
  match answer with
  | .error _ =>
      cases h
      rfl
  | .ok true => cases h
  | .ok false => cases h

theorem visit (hloops : (S.watched w₁).LeavesLoopsAlone start) (room : Nat) {node : Node}
    (hagree : w₂.map (· · node) = w₁.map (· · node)) :
    Safe (S.watched w₁) start looped (Exec.visit (S.watched w₁) node room)
      (Exec.visit (S.watched w₂) node room) := by
  intro ⟨h, w, p, t⟩ hw
  by_cases hlimit : S.limits.steps.most < p.steps + 1
  · rw [runFrom_visit_of_lt hlimit, runFrom_visit_of_lt hlimit]
    refine ⟨rfl, hw, fun fault hfault => ?_⟩
    cases hfault
    exact .of_isFor (node.isFor_faultAt _) rfl
  · cases w₁ with
    | none =>
        obtain rfl : w₂ = none := Option.map_eq_none_iff.1 hagree
        rw [runFrom_visit_none hlimit rfl]
        exact ⟨rfl, hw, nofun⟩
    | some watcher =>
        obtain ⟨watcher', rfl, hsame⟩ := Option.map_eq_some_iff.1 hagree
        rw [runFrom_visit_some hlimit rfl, runFrom_visit_some hlimit rfl, congrFun hsame room]
        refine ⟨rfl, .watch room node _ h t rfl hw, fun fault hfault => ?_⟩
        have hask := error_of_answered hfault
        exact ⟨fun _ => hloops.watch rfl hw hask, fun _ => .watch rfl hw hask⟩

/-- The steps of a run are safe, if requests to loops are left to the script. -/
def coupling (hloops : (S.watched w₁).LeavesLoopsAlone start)
    (hagree : ∀ node, node.IsWellFormed → w₂.map (· · node) = w₁.map (· · node)) :
    Coupling S w₁ w₂ where
  Rel looped := Safe (S.watched w₁) start looped
  Allows := (S.watched w₁).Permits start false
  strict := true
  ordinary := .of_isOrdinary
  loose := nofun
  pure a := of_ok fun s => ⟨a, s, rfl, rfl⟩
  bind := bind
  read hf := fun ⟨h, w, p, t⟩ hw => hf h w p t t ⟨h, w, p, t⟩ hw
  fail h := fail (h.mono _)
  leave := fail ⟨nofun, nofun⟩
  next := fail ⟨nofun, nofun⟩
  onHeap _ := of_ok fun _ => ⟨_, _, rfl, rfl⟩
  setLocal _ _ := of_ok fun _ => ⟨_, _, rfl, rfl⟩
  coolDown _ _ := of_ok fun _ => ⟨_, _, rfl, rfl⟩
  onWorld hturn := onWorld fun h w hw => (hturn.replies hloops.admits h w hw).imp id
    fun hfaults fault hfault => (hfaults fault hfault).mono _
  store name v := onWorld fun _ _ hw => ⟨.write name v hw, .ok _⟩
  visit node room hnode := visit hloops room (hagree node (hnode rfl))
  deeper h := deeper (h.mono _)
  round := round

end Safe

end Exec

/-! ### Runs of compiled programs -/

theorem Interpreter.permits_surfaced {env : Setting ω τ} {start : ω} {fault : Fault}
    (h : env.Permits start false fault) : env.Permits start false (surfaced fault) := by
  unfold surfaced
  split
  · exact .of_isOrdinary rfl
  · exact h

theorem Interpreter.permits_concluded {env : Setting ω τ} {start : ω}
    {r : Except Stop Unit × State ω τ}
    (h : ∀ fault, r.1 = .error (.fault fault) → env.Permits start false fault) {fault : Fault}
    (hfault : (concluded r).1 = .error fault) : env.Permits start false fault := by
  obtain ⟨raised, hraised, rfl⟩ := error_of_concluded hfault
  exact permits_surfaced (h raised hraised)

section Runs

variable {env : Setting ω τ} {s : State ω τ} (hloops : env.LeavesLoopsAlone s.world)

/-- The runs from a state under watchers that agree on well-formed nodes. -/
def Setting.coupled {watcher : Option (Watcher ω τ)}
    (hagree : ∀ node, node.IsWellFormed → watcher.map (· · node) = env.watcher.map (· · node)) :
    Exec.Coupling ⟨env.binding, env.limits, env.context⟩ env.watcher watcher :=
  Exec.Safe.coupling hloops hagree

include hloops

theorem Interpreter.permits_run {program : Program} (hprogram : Node.AreStatements false program)
    (room : Nat) {fault : Fault} (hfault : (run env room program s).1 = .error fault) :
    env.Permits s.world false fault := by
  by_cases hidle : s.progress.phase = .idle
  · rw [run_of_idle hidle] at hfault
    have hsafe := (Setting.coupled hloops fun _ _ => rfl).execAll program false (fun _ => hprogram)
      room
    exact permits_concluded (hsafe (inPhase .running s) .start).2.2 hfault
  · rw [run_of_not_idle hidle] at hfault
    cases hfault
    exact .of_isOrdinary rfl

theorem Interpreter.run_of_agree {program : Program} (hprogram : Node.AreStatements false program)
    (room : Nat) {watcher : Option (Watcher ω τ)}
    (hagree : ∀ node, node.IsWellFormed → watcher.map (· · node) = env.watcher.map (· · node)) :
    run { env with watcher } room program s = run env room program s := by
  by_cases hidle : s.progress.phase = .idle
  · rw [run_of_idle hidle, run_of_idle hidle]
    have hsafe := (Setting.coupled hloops hagree).execAll program false (fun _ => hprogram) room
    exact congrArg concluded (hsafe (inPhase .running s) .start).1
  · rw [run_of_not_idle hidle, run_of_not_idle hidle]

theorem Exec.permits_exec {body : Node} (hbody : body.IsStatement false) (room : Nat)
    {fault : Fault} (hfault : ((exec env body room).runFrom s).1 = .error (.fault fault)) :
    env.Permits s.world false fault := by
  have hsafe := (Setting.coupled hloops fun _ _ => rfl).exec false (fun _ => hbody) room
  exact (hsafe s .start).2.2 fault hfault

end Runs

theorem Exec.eq_ok_of_heard {result : Except Stop Unit} {goesOn : Bool}
    (hresult : ∀ fault, result = .error (.fault fault) → fault.isSignal = false)
    (h : heard result = .ok goesOn) : goesOn = true ∧ result = .ok () := by
  match result with
  | .ok () =>
      cases h
      exact ⟨rfl, rfl⟩
  | .error .abort => cases h
  | .error (.fault fault) =>
      have hfault := hresult fault rfl
      cases fault with
      | leave | next => cases hfault
      | _ => cases h

/-- **Runs of compiled programs are safe.**  If requests to loops are left to the script, then: (1)
a run does not fail with such a request, and a fault about the form of a tree with which it fails
was made outside; (2) the watcher is told of well-formed nodes only, so another one that agrees with
it on those makes no difference; (3) no expression that is evaluated makes a request, whatever the
routines and member functions raise that it calls; (4) a round of a loop whose body has no requests
of its own is neither left nor cut short. -/
theorem compiled_run_safe {file source : String} {program : Program}
    (hcompile : compile file source = .ok program) (env : Setting ω τ) (s : State ω τ)
    (hloops : env.LeavesLoopsAlone s.world) (room : Nat) :
    (∀ fault, (Interpreter.run env room program s).1 = .error fault →
      fault.isSignal = false ∧ (fault.isStructural = true → env.Raises s.world fault)) ∧
    (∀ watcher : Option (Watcher ω τ),
      (∀ node, node.IsWellFormed → watcher.map (· · node) = env.watcher.map (· · node)) →
      Interpreter.run { env with watcher } room program s = Interpreter.run env room program s) ∧
    (∀ node fault, node.IsExpression →
      ((Exec.eval env node room).runFrom s).1 = .error (.fault fault) → fault.isSignal = false) ∧
    (∀ body goesOn, body.IsStatement false →
      ((Exec.round (Exec.exec env body room)).runFrom s).1 = .ok goesOn →
      goesOn = true ∧ ((Exec.exec env body room).runFrom s).1 = .ok ()) := by
  have hprogram := areStatements_of_compile hcompile
  refine ⟨fun fault hfault => ?_, fun watcher hagree => ?_, fun node fault hnode hfault => ?_,
    fun body goesOn hbody hround => ?_⟩
  · exact (Interpreter.permits_run hloops hprogram room hfault).imp (fun h => h rfl) id
  · exact Interpreter.run_of_agree hloops hprogram room hagree
  · have hsafe := (Setting.coupled hloops fun _ _ => rfl).eval (fun _ => hnode) false room
    exact ((hsafe s .start).2.2 fault hfault).1 rfl
  · rw [Exec.runFrom_round] at hround
    refine Exec.eq_ok_of_heard (fun fault hfault => ?_) hround
    exact (Exec.permits_exec hloops hbody room hfault).1 rfl

/-- A loop around a call of an executor that asks for the loop to be left: the loop does not hear
of that, and the run fails with a fault that is no such request. -/
theorem compiled_run_safe_stopping :
    let binding : Binding Unit :=
      { Binding.still with invoke := fun _ _ _ _ _ h w => (.error (.leave "" false), h, w) }
    let env : Setting Unit Unit := ⟨binding, Config.default.limits, none, .null⟩
    let line : Line := .number 1
    let program : Program :=
      [.repetition (.literal .bool (.bool true) line 7)
        (.block [.expression (.reference .executor "stop" [] line) line] line) line]
    compile "loop" "while true \x7b \x23stop \x7d" = .ok program ∧
      ∃ fault, (Interpreter.run env 100 program ⟨{}, (), .start .empty, ()⟩).1 = .error fault ∧
        fault.isSignal = false := by
  intro binding env line program
  have hcompile : compile "loop" "while true \x7b \x23stop \x7d" = .ok program := by cbv
  have hfails : (Interpreter.run env 100 program ⟨{}, (), .start .empty, ()⟩).1.isOk = false := by
    decide +kernel
  have hloops : env.LeavesLoopsAlone () := by
    refine ⟨fun h => ?_, fun _ h => ?_, fun _ h => ?_, fun hraises hengine => ?_⟩
    · cases h
    · cases h
    · cases h
    · cases hraises with
      | invoke _ h =>
          cases h
          cases hengine
      | call _ h | member _ h | consult _ h | item _ h => cases h
      | endless => cases hengine
      | watch h => cases h
  refine ⟨hcompile, ?_⟩
  cases hrun : (Interpreter.run env 100 program ⟨{}, (), .start .empty, ()⟩).1 with
  | ok outcome =>
      rw [hrun] at hfails
      cases hfails
  | error fault => exact ⟨fault, rfl, ((compiled_run_safe hcompile env _ hloops 100).1 fault hrun).1⟩

/-- Without that condition compiled programs are not safe, even if there are no watcher and no
sequences.  An executor whose method asks for a loop to be left when it is looked up: the endless
loop around its call is left, and outside of loops the run fails with the request.  And an executor
that complains about the form of a tree itself: the run fails with that complaint. -/
theorem compiled_run_unsafe :
    let line : Line := .number 1
    let call : Node := .expression (.reference .executor "stop" [] line) line
    let loop : Node := .repetition (.literal .bool (.bool true) line 7) (.block [call] line) line
    let complaint : Fault := .script (.mismatch (.invalidExpression "stop")) (some 1)
    let looking : Host :=
      { objects := #[⟨"", .empty, .empty, ⟨[("invoke", .leave "" false)]⟩, #[], none⟩]
        executors := ⟨.role .executor, ⟨[("stop", .value (.object 0 .plain))]⟩⟩ }
    let complaining : Host :=
      { routines := #[⟨"executor", "stop", Routine.raising complaint⟩]
        executors := ⟨.role .executor, ⟨[("stop", .routine 0 .direct)]⟩⟩ }
    let ended (host : Host) (node : Node) : Except Fault Outcome :=
      (Interpreter.run (τ := Unit) ⟨Host.binding, Config.default.limits, none, .null⟩ 100 [node]
        ⟨{}, host, .start .empty, ()⟩).1
    compile "loop" "while true \x7b \x23stop \x7d" = .ok [loop] ∧
      compile "call" "\x23stop" = .ok [call] ∧
      (ended looking loop).toOption.map Outcome.phase = some .completed ∧
      ended looking call = .error (.leave "" false) ∧
      ended complaining call = .error complaint ∧ complaint.isStructural = true := by
  refine ⟨by cbv, by cbv, by decide +kernel, by rfl, by rfl, rfl⟩

end TriggerEngine
