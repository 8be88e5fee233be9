/-
**What gets past an activation.**

Whoever asks for an activation is not to notice how it ends: what a run raises is reported and
told to the actor.  But not everything that happens on the way is part of the run.  Who is behind
the event has to be found and looked up in the store; what is left of a cooldown has to be computed
and put into words; and an actor can be told of a failure only if the failure has a wording.  What
the host raises to end everything is caught by nobody.

This module lists what can go wrong there.  The list is exact: it says for every manager that can
be reached, every trigger, every event and all variables which fault gets out, and so also that no
other does.

Main definitions:

* `Cooldowns.Untold` — ends of cooldowns that leave a time which cannot be told;
* `Activation.Escapes` — what gets out of what ended a run;
* `Manager.Leaks` — what gets past an activation.

Main results:

* `Manager.gate_error_iff` — what goes wrong at the gate;
* `Activation.finish_error_iff` — what goes wrong when a run is over;
* `activate_error_iff` — **what gets past an activation**.
-/

import TriggerEngine.Proofs.Manager.Upkeep

set_option autoImplicit false

namespace TriggerEngine

/-! ### The time that is left -/

namespace Cooldowns

/-- Ends of cooldowns that leave a time which cannot be told. -/
inductive Untold (stop clock : Number) : Fault → Prop
  /-- The one is a whole number, the other a double, and the whole number is too large. -/
  | trouble {trouble : Number.Trouble} : stop.sub clock = .error trouble →
      Untold stop clock (.ofTrouble trouble)
  /-- The time never ends. -/
  | endless {x : Float} : stop.sub clock = .ok (.float x) → Number.decode x = .infinite false →
      Untold stop clock (.plain .overflow "cannot convert float infinity to integer")
  /-- The time is a whole number with too many digits. -/
  | digits {n : Int} : stop.sub clock = .ok (.int n) → 0 < n → Number.intText? n = none →
      Untold stop clock .tooManyDigits

theorem noticeFor_int_error_iff {n : Int} {mark : Mark} {fault : Fault} :
    noticeFor (.int n mark) = .error fault ↔
      Number.intText? n = none ∧ fault = .tooManyDigits := by
  unfold noticeFor secondsText
  dsimp only [Value.numeric?, Value.number?]
  cases Number.intText? n with
  | none => exact ⟨fun h => ⟨rfl, (Except.error.inj h).symm⟩, fun h => h.2 ▸ rfl⟩
  | some s => exact iff_of_false (fun h => by cases h) (fun h => by cases h.1)

theorem noticeFor_infinite {x : Float} {negative : Bool}
    (hx : Number.decode x = .infinite negative) (mark : Mark) :
    noticeFor (.float x mark) =
      .error (.plain .overflow "cannot convert float infinity to integer") := by
  unfold noticeFor secondsText
  dsimp only [Value.numeric?, Value.number?]
  rw [hx]
  rfl

theorem untold_iff {stop clock span : Number} (hspan : stop.sub clock = .ok span) {fault : Fault} :
    Untold stop clock fault ↔ Number.isLeft span = true ∧
      noticeFor (.ofNumber (atLeastZero span) .shared) = .error fault := by
  constructor
  · rintro (htrouble | ⟨hfloat, hx⟩ | ⟨hint, hpos, hlong⟩)
    · rw [hspan] at htrouble
      cases htrouble
    · obtain rfl := Except.ok.inj (hspan.symm.trans hfloat)
      have hleft := Number.isLeft_of_infinite hx
      refine ⟨hleft, ?_⟩
      rw [Number.atLeastZero_of_isLeft hleft]
      exact noticeFor_infinite hx .shared
    · obtain rfl := Except.ok.inj (hspan.symm.trans hint)
      have hleft := (Number.isLeft_int _).2 hpos
      refine ⟨hleft, ?_⟩
      obtain ⟨mark, hvalue⟩ := ofNumber_int _ .shared
      rw [Number.atLeastZero_of_isLeft hleft, hvalue]
      exact noticeFor_int_error_iff.2 ⟨hlong, rfl⟩
  · rintro ⟨hleft, hnotice⟩
    rw [Number.atLeastZero_of_isLeft hleft] at hnotice
    cases span with
    | int n =>
        obtain ⟨mark, hvalue⟩ := ofNumber_int n .shared
        rw [hvalue] at hnotice
        obtain ⟨hlong, rfl⟩ := noticeFor_int_error_iff.1 hnotice
        exact .digits hspan ((Number.isLeft_int n).1 hleft) hlong
    | float x =>
        change noticeFor (.float x .shared) = .error fault at hnotice
        cases hx : Number.decode x with
        | nan =>
            rw [Number.not_isLeft_of_nan hx] at hleft
            cases hleft
        | infinite negative =>
            rw [Number.isLeft_of_infinite hx, Bool.not_eq_true'] at hleft
            rw [noticeFor_infinite hx] at hnotice
            cases hnotice
            exact .endless hspan (hleft ▸ hx)
        | finite parts =>
            rw [noticeFor_finite hx] at hnotice
            cases hnotice

end Cooldowns

/-! ### The end of a run -/

namespace Activation

theorem recordCooldown_ok {a : Activation} (hkey : a.actor.isHashable = true) (p : Progress)
    (h : Heap) (m : Manager) (w : Watch) : (a.recordCooldown p h m w).1 = .ok () := by
  unfold recordCooldown
  split
  · rfl
  · split
    · rfl
    · dsimp only
      split
      · rfl
      · rw [Cooldowns.put?_of_isHashable _ hkey]

/-- Whether what ended a run gets out: nobody catches it, or the actor is to be told of it and it
has no wording. -/
inductive Escapes (a : Activation) : Fault → Fault → Prop
  | uncaught {fault : Fault} : fault.isCaught = false → Escapes a fault fault
  | wording {name : String} {engine : Bool} : a.actor.isNull = false →
      Escapes a (.wordless name engine) .tooManyDigits

theorem reportFailure_error_iff (a : Activation) (raised : Fault) (h : Heap) (m : Manager)
    (fault : Fault) :
    (a.reportFailure raised h m).1 = .error fault ↔ fault = .tooManyDigits ∧
      a.actor.isNull = false ∧ ∃ name engine, raised = .wordless name engine := by
  unfold reportFailure tellFailure
  dsimp only
  cases a.actor.isNull with
  | true => exact iff_of_false (by simp) (by simp)
  | false =>
      cases raised with
      | wordless name engine =>
          exact ⟨fun hraised => ⟨(Except.error.inj hraised).symm, rfl, name, engine, rfl⟩,
            fun hraised => hraised.1 ▸ rfl⟩
      | _ => exact iff_of_false (by simp [Fault.wording]) (by simp)

theorem wrapUp_fst {a : Activation} (hkey : a.actor.isHashable = true)
    (result : Except Fault Outcome) (s : State Manager Watch) :
    ∃ m, (a.wrapUp result s).1 = (a.reportEnd result s.heap m).1 := by
  obtain ⟨h, m, p, w⟩ := s
  unfold wrapUp
  dsimp only
  split
  · rename_i hrecord
    cases (congrArg Prod.fst hrecord).symm.trans (recordCooldown_ok hkey ..)
  · rename_i m' _ _
    exact ⟨m', rfl⟩

/-- **What goes wrong when a run is over**: what ended it gets out, or nothing does. -/
theorem finish_error_iff {a : Activation} (hkey : a.actor.isHashable = true)
    (result : Except Fault Outcome) (s : State Manager Watch) (fault : Fault) :
    (a.finish result s).1 = .error fault ↔
      ∃ raised, result = .error raised ∧ a.Escapes raised fault := by
  obtain ⟨m, hwrap⟩ := wrapUp_fst hkey result s
  cases result with
  | ok outcome =>
      rw [finish, hwrap]
      exact iff_of_false (by simp [reportEnd]) (by simp)
  | error raised =>
      simp only [Except.error.injEq, exists_eq_left']
      cases hcaught : raised.isCaught with
      | false =>
          rw [finish, hcaught]
          constructor
          · rintro ⟨⟩
            exact .uncaught hcaught
          · rintro (_ | _)
            · rfl
            · cases hcaught
      | true =>
          rw [finish, if_pos hcaught, hwrap]
          dsimp only [reportEnd]
          rw [reportFailure_error_iff]
          constructor
          · rintro ⟨rfl, hnull, name, engine, rfl⟩
            exact .wording hnull
          · rintro (hfalse | hnull)
            · rw [hcaught] at hfalse
              cases hfalse
            · exact ⟨rfl, hnull, _, _, rfl⟩

end Activation

/-! ### The gate -/

namespace Manager

section Gate

variable {m : Manager} {h : Heap} {event actor : Value} (trigger : Trigger) (locals : Table Value)

theorem gate_error_iff_of_key (hopen : m.closed = false) (hactor : m.actor h event = .ok actor)
    (hnull : actor.isNull = false) (hkey : actor.isHashable = true)
    {stop : Number} (hholds : m.cooldowns.Holds actor (some stop)) (fault : Fault) :
    (m.gate trigger event locals h).1 = .error fault ↔
      Cooldowns.Untold stop m.host.clock fault := by
  have hremaining := Cooldowns.remaining_of_some hkey hholds m.host.clock
  cases hsub : stop.sub m.host.clock with
  | error trouble =>
      rw [hsub] at hremaining
      rw [gate_of_trouble trigger locals hopen hactor hnull hremaining]
      constructor
      · intro hraised
        cases hraised
        exact .trouble hsub
      · rintro (htrouble | ⟨hspan, -⟩ | ⟨hspan, -, -⟩)
        · rw [hsub] at htrouble
          cases htrouble
          rfl
        · rw [hsub] at hspan
          cases hspan
        · rw [hsub] at hspan
          cases hspan
  | ok span =>
      rw [hsub] at hremaining
      have hlive : Cooldowns.isLive (Cooldowns.atLeastZero span) = Number.isLeft span := rfl
      rw [gate_of_left trigger locals hopen hactor hnull hremaining, hlive,
        Cooldowns.untold_iff hsub]
      cases Number.isLeft span with
      | false => exact iff_of_false (by simp) fun h => by cases h.1
      | true =>
          rw [if_pos rfl]
          cases Cooldowns.noticeFor (.ofNumber (Cooldowns.atLeastZero span) .shared) with
          | error raised =>
              constructor
              · intro hraised
                cases hraised
                exact ⟨rfl, rfl⟩
              · rintro ⟨-, hraised⟩
                cases hraised
                rfl
          | ok text => exact iff_of_false (by simp) fun h => by cases h.2

theorem gate_of_none (hopen : m.closed = false) (hactor : m.actor h event = .ok actor)
    (hnull : actor.isNull = false) (hkey : actor.isHashable = true)
    (hholds : m.cooldowns.Holds actor none) :
    m.gate trigger event locals h = (.ok (some (m.activation trigger event actor locals)), m) := by
  have hleft := Cooldowns.remaining_of_none hkey hholds m.host.clock
  rw [gate_of_left trigger locals hopen hactor hnull hleft]
  exact if_neg (by decide +kernel)

theorem gate_of_not_key (hopen : m.closed = false) (hactor : m.actor h event = .ok actor)
    (hkey : actor.isHashable = false) :
    m.gate trigger event locals h = (.error (.unhashable actor), m) := by
  have hnull : actor.isNull = false := by
    cases actor with
    | null => cases hkey
    | _ => rfl
  refine gate_of_trouble trigger locals hopen hactor hnull ?_
  rw [Cooldowns.remaining, Cooldowns.get?, Cooldowns.checkActor, hkey]
  rfl

end Gate

/-- What gets past an activation. -/
inductive Leaks (m : Manager) (trigger : Trigger) (event : Value) (locals : Table Value)
    (h : Heap) : Fault → Prop
  /-- It cannot be found who is behind the event. -/
  | actor {fault : Fault} : m.actor h event = .error fault → Leaks m trigger event locals h fault
  /-- Who is behind the event can be no key. -/
  | key {actor : Value} : m.actor h event = .ok actor → actor.isHashable = false →
      Leaks m trigger event locals h (.unhashable actor)
  /-- It cannot be told how long the actor has to wait. -/
  | wait {actor : Value} {stop : Number} {fault : Fault} : m.actor h event = .ok actor →
      actor.isNull = false → actor.isHashable = true → m.cooldowns.Holds actor (some stop) →
      Cooldowns.Untold stop m.host.clock fault → Leaks m trigger event locals h fault
  /-- A run was started, and what ended it gets out. -/
  | run {a : Activation} {raised fault : Fault} : m.started? trigger event locals h = some a →
      (a.run binding (Interpreter.roomBelow ownFrames) h (m.handedOver a)).1 = .error raised →
      a.Escapes raised fault → Leaks m trigger event locals h fault

theorem activate_error_cases {m : Manager} (hdirect : m.spawner = .direct) (trigger : Trigger)
    (event : Value) (locals : Table Value) (h : Heap) (fault : Fault) :
    (activate trigger event locals h m).1 = .error fault ↔
      (m.gate trigger event locals h).1 = .error fault ∨
        ∃ a, m.started? trigger event locals h = some a ∧
          (perform a h (m.handedOver a)).1 = .error fault := by
  cases hstarted : m.started? trigger event locals h with
  | some a =>
      obtain ⟨actor, -, -, hgate⟩ := gate_of_started hstarted
      rw [activate_of_started hdirect hstarted, hgate]
      constructor
      · exact fun hraised => .inr ⟨a, rfl, hraised⟩
      · rintro (hraised | ⟨a', ha', hraised⟩)
        · cases hraised
        · cases ha'
          exact hraised
  | none =>
      have hgate : (activate trigger event locals h m).1 = .error fault ↔
          (m.gate trigger event locals h).1 = .error fault := by
        rw [activate, activateWith]
        rcases hcase : m.gate trigger event locals h with ⟨raised | _ | a, m'⟩
        · constructor <;> (intro hraised; cases hraised; rfl)
        · exact iff_of_false (by simp) (by simp)
        · rw [started?, hcase] at hstarted
          cases hstarted
      rw [hgate]
      constructor
      · exact .inl
      · rintro (hraised | ⟨a, ha, -⟩)
        · exact hraised
        · cases ha

theorem gate_error_iff {m : Manager} (hm : m.IsRegular) (trigger : Trigger) (event : Value)
    (locals : Table Value) (h : Heap) (hopen : m.closed = false) (fault : Fault) :
    (m.gate trigger event locals h).1 = .error fault ↔ m.actor h event = .error fault ∨
      ∃ actor, m.actor h event = .ok actor ∧
        (actor.isHashable = false ∧ fault = .unhashable actor ∨
          actor.isNull = false ∧ actor.isHashable = true ∧
            ∃ stop, m.cooldowns.Holds actor (some stop) ∧
              Cooldowns.Untold stop m.host.clock fault) := by
  cases hactor : m.actor h event with
  | error raised =>
      have hgate : m.gate trigger event locals h = (.error raised, m) := by
        rw [gate, hopen, hactor]
        rfl
      rw [hgate]
      constructor
      · intro hraised
        cases hraised
        exact .inl rfl
      · rintro (hraised | ⟨_, hfound, -⟩)
        · cases hraised
          rfl
        · cases hfound
  | ok actor =>
      have honly {P : Value → Prop} : (Except.ok actor = Except.error fault ∨
          ∃ v, (Except.ok actor : Except Fault Value) = .ok v ∧ P v) ↔ P actor := by
        simp
      rw [honly]
      cases hkey : actor.isHashable with
      | false =>
          rw [gate_of_not_key trigger locals hopen hactor hkey]
          constructor
          · intro hraised
            exact .inl ⟨rfl, (Except.error.inj hraised).symm⟩
          · rintro (⟨-, rfl⟩ | ⟨-, hfalse, -⟩)
            · rfl
            · cases hfalse
      | true =>
          cases hnull : actor.isNull with
          | true =>
              rw [gate_of_null trigger locals hopen hactor hnull]
              exact iff_of_false (by simp) (by simp)
          | false =>
              have hof (stop : Number) (hholds : m.cooldowns.Holds actor (some stop)) :=
                gate_error_iff_of_key trigger locals hopen hactor hnull hkey hholds fault
              constructor
              · intro hraised
                obtain ⟨_ | stop, hholds⟩ := hm.timed actor
                · rw [gate_of_none trigger locals hopen hactor hnull hkey hholds] at hraised
                  cases hraised
                · exact .inr ⟨rfl, rfl, stop, hholds, (hof stop hholds).1 hraised⟩
              · rintro (⟨hfalse, -⟩ | ⟨-, -, stop, hholds, huntold⟩)
                · cases hfalse
                · exact (hof stop hholds).2 huntold

theorem actor_of_started {m : Manager} {trigger : Trigger} {event : Value}
    {locals : Table Value} {h : Heap} {a : Activation}
    (ha : m.started? trigger event locals h = some a) :
    m.closed = false ∧ a.actor.isHashable = true := by
  obtain ⟨actor, hactor, rfl, hgate⟩ := gate_of_started ha
  have hopen : m.closed = false := by
    cases hclosed : m.closed with
    | false => rfl
    | true =>
        rw [gate, if_pos hclosed] at hgate
        cases hgate
  refine ⟨hopen, ?_⟩
  cases hkey : actor.isHashable with
  | true => exact hkey
  | false =>
      rw [gate_of_not_key trigger locals hopen hactor hkey] at hgate
      cases hgate

end Manager

open Manager

/-- **What gets past an activation**: nothing at all if the manager is shut down, and otherwise what
is listed, for every manager that can be reached, every trigger, every event and all variables.
Only events that are objects of the host can fail to say who is behind them. -/
theorem activate_error_iff {m : Manager} (hm : m.Reachable) (trigger : Trigger) (event : Value)
    (locals : Table Value) (h : Heap) (fault : Fault) :
    ((activate trigger event locals h m).1 = .error fault ↔
      m.closed = false ∧ m.Leaks trigger event locals h fault) ∧
    ((∀ id mark, event ≠ .object id mark) → ∃ actor, m.actor h event = .ok actor) := by
  have hregular := hm.regular
  have hrun (a : Activation) (ha : m.started? trigger event locals h = some a) :
      (perform a h (m.handedOver a)).1 = .error fault ↔ _ :=
    Activation.finish_error_iff (actor_of_started ha).2 _ _ fault
  refine ⟨?_, fun hevent => ?_⟩
  · rw [activate_error_cases hregular.direct]
    constructor
    · rintro (hgate | ⟨a, ha, hperform⟩)
      · cases hopen : m.closed with
        | true =>
            rw [gate, if_pos hopen] at hgate
            cases hgate
        | false =>
            refine ⟨rfl, ?_⟩
            have hcases := gate_error_iff hregular trigger event locals h hopen fault
            rcases hcases.1 hgate with
              hactor | ⟨actor, hactor, ⟨hkey, rfl⟩ | ⟨hnull, hkey, stop, hholds, huntold⟩⟩
            · exact .actor hactor
            · exact .key hactor hkey
            · exact .wait hactor hnull hkey hholds huntold
      · obtain ⟨raised, hraised, hescapes⟩ := (hrun a ha).1 hperform
        exact ⟨(actor_of_started ha).1, .run ha hraised hescapes⟩
    · rintro ⟨hopen, hleaks⟩
      have hgate := gate_error_iff hregular trigger event locals h hopen fault
      cases hleaks with
      | actor hactor => exact .inl (hgate.2 (.inl hactor))
      | key hactor hkey => exact .inl (hgate.2 (.inr ⟨_, hactor, .inl ⟨hkey, rfl⟩⟩))
      | wait hactor hnull hkey hholds huntold =>
          exact .inl (hgate.2 (.inr ⟨_, hactor, .inr ⟨hnull, hkey, _, hholds, huntold⟩⟩))
      | run ha hraised hescapes => exact .inr ⟨_, ha, (hrun _ ha).2 ⟨_, hraised, hescapes⟩⟩
  · rw [actor, hregular.asking]
    cases event with
    | object id mark => exact absurd rfl (hevent id mark)
    | _ => exact ⟨_, rfl⟩

/-- A list is behind the event, which can be no key. -/
theorem activate_error_iff_list :
    let m : Manager := { host := {}, config := .default }
    let heap : Heap := { lists := #[#[.whole 1]], maps := #[#[(.text "actor", .list 0)]] }
    let trigger : Trigger := ⟨none, "", []⟩
    m.Reachable ∧
      (activate trigger (.map 0) .empty heap m).1 = .error (.unhashable (.list 0)) := by
  intro m heap trigger
  have hreachable : m.Reachable := .start rfl rfl rfl
  have hleaks : m.Leaks trigger (.map 0) .empty heap (.unhashable (.list 0)) := .key rfl rfl
  exact ⟨hreachable,
    (activate_error_iff hreachable trigger (.map 0) .empty heap _).1.2 ⟨rfl, hleaks⟩⟩

/-- **A cooldown without an end**: whoever asks for the next activation learns that the time that is
left cannot be told. -/
theorem activate_raises_endless :
    let m : Manager := { host := {}, config := .default }
    let heap : Heap := { maps := #[#[(.text "actor", .text "a")]] }
    let trigger : Trigger := ⟨some "wait", "set cooldown to x",
      [.cooldown (.ident (.word "x") (.number 1)) (.number 1)]⟩
    let endless : Float := Number.assemble false Number.infinityBits
    let locals : Table Value := ⟨[("x", .float endless .shared)]⟩
    let after := (activate trigger (.map 0) locals heap m).2
    compile "wait" trigger.source = .ok trigger.program ∧ after.2.Reachable ∧
      (activate trigger (.map 0) locals heap m).1.mapError Fault.message = .ok () ∧
      (activate trigger (.map 0) locals after.1 after.2).1.mapError Fault.message =
        .error "cannot convert float infinity to integer" := by
  intro m heap trigger endless locals after
  exact ⟨by cbv, .activate _ _ _ _ (.start rfl rfl rfl), by decide +kernel, by decide +kernel⟩

end TriggerEngine
