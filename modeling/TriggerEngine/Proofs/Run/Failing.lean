/-
**The faults of a run.**

A run fails in two ways: something inside of it goes wrong, or something outside does and the run
passes that on.  To say how runs fail is therefore to say which faults are counted in: those of
operations on values, those that blame a node of the program, and those that come from outside.  If
all of these are of some kind, then so is every fault with which a part of the run ends, except that
a loop around may be asked for something.

Main definitions:

* `Exec.Fails` — computations that fail with faults of some kind;
* `Exec.Tolerates` — kinds of faults that count in what comes from outside.

Main results:

* `Exec.Fails.pairing` — **every part of a run fails with faults of such a kind**.
-/

import TriggerEngine.Proofs.Run.Safety

set_option autoImplicit false

namespace TriggerEngine

variable {ω τ α β : Type}

namespace Exec

/-- Whether a part of a run, in the worlds that it can come to, fails with faults of some kind only,
or asks a loop around for something. -/
def Fails (env : Setting ω τ) (start : ω) (Q : Fault → Prop) (looped : Bool) (x : Exec ω τ α) :
    Prop :=
  ∀ s, env.Reaches start s.world → env.Reaches start (x.runFrom s).2.world ∧
    ∀ fault, (x.runFrom s).1 = .error (.fault fault) →
      Q fault ∨ (looped = true ∧ fault.isSignal = true)

/-- Whether a kind of faults counts in those of operations on values and those that come from
outside: the ones that calls let pass, and those of inquiries, of sequences and of the watcher. -/
structure Tolerates (env : Setting ω τ) (start : ω) (Q : Fault → Prop) : Prop
    extends env.Admits start Q where
  watch : ∀ {watcher : Watcher ω τ} {room : Nat} {node : Node} {p : Progress} {h : Heap} {w : ω}
    {t : τ} {fault : Fault}, env.watcher = some watcher → env.Reaches start w →
    (watcher room node p h w t).1 = .error fault → Q fault

namespace Fails

variable {env : Setting ω τ} {start : ω} {Q : Fault → Prop} {looped : Bool}

theorem of_ok {x : Exec ω τ α} (h : ∀ s, ∃ a s', x.runFrom s = (.ok a, s') ∧ s'.world = s.world) :
    Fails env start Q looped x := by
  intro s hs
  obtain ⟨a, s', hrun, hworld⟩ := h s
  rw [hrun]
  refine ⟨hworld ▸ hs, ?_⟩
  intro fault hfault
  cases hfault

theorem fail {fault : Fault} (h : Q fault ∨ (looped = true ∧ fault.isSignal = true)) :
    Fails env start Q looped (Exec.fail fault : Exec ω τ α) := by
  intro s hs
  refine ⟨hs, fun raised hraised => ?_⟩
  cases hraised
  exact h

theorem bind {x : Exec ω τ α} {f : α → Exec ω τ β} (hx : Fails env start Q looped x)
    (hf : ∀ a, Fails env start Q looped (f a)) : Fails env start Q looped (x >>= f) := by
  intro s hs
  obtain ⟨hreach, hfaults⟩ := hx s hs
  rcases hrun : x.runFrom s with ⟨stop | a, s'⟩
  · rw [hrun] at hreach hfaults
    rw [runFrom_bind_of_error hrun]
    refine ⟨hreach, fun fault hfault => ?_⟩
    cases hfault
    exact hfaults fault rfl
  · rw [hrun] at hreach
    rw [runFrom_bind_of_ok hrun]
    exact hf a s' hreach

theorem onWorld {f : Heap → ω → Except Fault α × Heap × ω} (hf : Replies env start Q f) :
    Fails env start Q looped (Exec.onWorld f) := by
  intro ⟨heap, w, p, t⟩ hw
  obtain ⟨hreach, hfaults⟩ := hf heap w hw
  rw [runFrom_onWorld]
  exact ⟨hreach, fun fault hfault => .inl (hfaults fault (error_of_mapError hfault))⟩

theorem deeper {most : Nat} {limit : Unit → Fault} {x : Exec ω τ α} (hlimit : Q (limit ()))
    (hx : Fails env start Q looped x) : Fails env start Q looped (Exec.deeper most limit x) := by
  intro ⟨h, w, p, t⟩ hw
  rw [runFrom_deeper]
  dsimp only
  split
  · refine ⟨hw, fun fault hfault => ?_⟩
    cases hfault
    exact .inl hlimit
  · exact hx ⟨h, w, { p with depth := p.depth + 1 }, t⟩ hw

theorem round {x : Exec ω τ Unit} (hx : Fails env start Q true x) :
    Fails env start Q looped (Exec.round x) := by
  intro s hs
  obtain ⟨hreach, hfaults⟩ := hx s hs
  rw [runFrom_round]
  refine ⟨hreach, fun fault hfault => .inl ?_⟩
  have herror := error_of_heard hfault
  rcases hfaults fault herror with hsettled | ⟨-, hsignal⟩
  · exact hsettled
  · rw [herror] at hfault
    cases fault with
    | leave => cases hfault
    | next => cases hfault
    | _ => cases hsignal

theorem visit (hQ : Tolerates env start Q) {node : Node} {room : Nat}
    (hnode : Q (node.faultAt (.limit (.steps env.limits.steps.text)))) :
    Fails env start Q looped (Exec.visit env node room) := by
  intro ⟨h, w, p, t⟩ hw
  by_cases hlimit : env.limits.steps.most < p.steps + 1
  · rw [runFrom_visit_of_lt hlimit]
    refine ⟨hw, fun fault hfault => ?_⟩
    cases hfault
    exact .inl hnode
  · cases hwatcher : env.watcher with
    | none =>
        rw [runFrom_visit_none hlimit hwatcher]
        refine ⟨hw, fun fault hfault => ?_⟩
        cases hfault
    | some watcher =>
        rw [runFrom_visit_some hlimit hwatcher]
        refine ⟨.watch room node _ h t hwatcher hw, fun fault hfault => .inl ?_⟩
        exact hQ.watch hwatcher hw (Safe.error_of_answered hfault)

/-- One computation after the other. -/
def stepwise (hQ : Tolerates env start Q) : Stepwise ω τ τ where
  Rel looped x _ := Fails env start Q looped x
  pure a := of_ok fun s => ⟨a, s, rfl, rfl⟩
  bind := bind
  noRoom := fail (.inl (hQ.blunt (.noRoom _)))
  setLocal _ _ := of_ok fun _ => ⟨_, _, rfl, rfl⟩
  round := round

theorem repetition (hQ : Tolerates env start Q) {test : Exec ω τ Bool} {body : Exec ω τ Unit}
    (htest : Fails env start Q looped test) (hbody : Fails env start Q true body) :
    Fails env start Q looped (Exec.rounds env >>= Exec.repeatWhile test body) :=
  bind (of_ok fun _ => ⟨_, _, rfl, rfl⟩)
    (@Stepwise.repeatWhile _ _ _ (stepwise hQ) _ _ body hbody _ test htest)

theorem items (hQ : Tolerates env start Q) (name : Name) (room id : Nat) {body : Exec ω τ Unit}
    (hbody : Fails env start Q true body) :
    Fails env start Q looped
      (Exec.rounds env >>= fun fuel => Exec.forItems env room name id body fuel 0) :=
  bind (of_ok fun _ => ⟨_, _, rfl, rfl⟩) fun fuel =>
    @Stepwise.forItems _ _ _ (stepwise hQ) _ _ body hbody env env room id
      (fun i => onWorld (Turn.replies hQ.toAdmits (.item room id i))) name fuel 0

/-- Every part of a run fails with faults of a kind that counts in what comes from outside and what
blames a node of the program. -/
def pairing (hQ : Tolerates env start Q) (Holds : Node → Prop)
    (hcause : ∀ {node : Node}, Holds node → ∀ cause, Q (.ofCause node.line cause))
    (hfault : ∀ {node : Node}, Holds node → ∀ cause, Q (node.faultAt cause))
    (hword : ∀ {target name line}, Holds (.member target name line) → ∃ word, name = .word word) :
    Pairing env env.limits env.watcher where
  Rel looped x _ := Fails env start Q looped x
  Allows := Q
  Holds := Holds
  strict := true
  blunt := hQ.blunt
  cause hnode _ := hcause hnode _
  notWord hnode hnone := by
    obtain ⟨word, hname⟩ := hword hnode
    exact (hnone word hname).elim
  loose := nofun
  pure a := of_ok fun s => ⟨a, s, rfl, rfl⟩
  bind := bind
  read hf s := hf s.heap s.world s.progress s.watch s.watch s
  fail h := fail (.inl h)
  leave := fail (.inr ⟨rfl, rfl⟩)
  next := fail (.inr ⟨rfl, rfl⟩)
  onHeap _ := of_ok fun _ => ⟨_, _, rfl, rfl⟩
  setLocal _ _ := of_ok fun _ => ⟨_, _, rfl, rfl⟩
  coolDown _ _ := of_ok fun _ => ⟨_, _, rfl, rfl⟩
  onWorld hturn := onWorld (Turn.replies hQ.toAdmits hturn)
  store name v := onWorld fun _ _ hw => ⟨.write name v hw, .ok _⟩
  visit room hnode _ := visit hQ (hfault hnode _)
  deeper _ hnode hx := deeper (hfault hnode _) hx
  round := round
  repetition htest hbody :=
    repetition hQ (bind htest fun _ => bind (onWorld (Turn.replies hQ.toAdmits (.consult _ _)))
      fun _ => of_ok fun _ => ⟨_, _, rfl, rfl⟩) hbody
  items name id _ room hbody := items hQ name room id hbody

end Fails

end Exec

end TriggerEngine
