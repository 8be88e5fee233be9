/-
**What is registered can be called.**

A registry refuses what cannot be called, by its method or directly, and a name that is taken,
unless it is to be replaced.  What is done to it is therefore told by the table of its entries: what
was refused leaves no trace, and the rest was done in its order.

A call of a capability looks for something callable once more, in its own way.  Whatever came to be
registered it finds callable, so a script that calls a registered name enters a routine, a callable
or a member function, and what can go wrong goes wrong in there.

Main definitions:

* `Registry.Op`, `Registry.after` — what is done to a registry, and what becomes of it;
* `Registry.Op.Admitted`, `Registry.Op.write` — when that succeeds, and what it writes;
* `Seat.Enters` — replies that something callable has given.

Main results:

* `Registry.Op.attempt_eq_ok_iff` — one operation;
* `Registry.entries_after`, `Registry.Sound.after` — any row of operations;
* `registered_callable` — **what is registered can be called**.
-/

import TriggerEngine.Proofs.Run.Stepping

set_option autoImplicit false

namespace TriggerEngine

namespace Registry

/-- What can be done to a registry. -/
inductive Op where
  /-- To hand in a name, with a capability or for a decorator. -/
  | submit (name : String) (c? : Option Capability) (replace : Bool)
  /-- To put a decorator on a capability. -/
  | decorate (d : Decorator) (c? : Option Capability)
  /-- To remove a name. -/
  | unregister (name : String)

variable (reachable : Capability → Except Fault Bool)

namespace Op

/-- An entry that a registry is to start with. -/
def ofEntry (entry : String × Option Capability) : Op :=
  .submit entry.1 entry.2 false

/-- Does something to a registry. -/
def attempt (r : Registry) : Op → Except Fault Registry
  | .submit name c? replace => (r.submit reachable name c? replace).map Prod.snd
  | .decorate d c? => r.decorate reachable d c?
  | .unregister name => .ok (r.unregister name)

/-- Whether a table admits an operation: a capability has to be reachable, and a name that is taken
to be replaced. -/
def Admitted (t : Table Capability) : Op → Prop
  | .submit name c? replace | .decorate ⟨name, replace⟩ c? =>
    ∀ c ∈ c?, reachable c = .ok true ∧ (replace = true ∨ t.get? name = none)
  | .unregister _ => True

/-- What an operation that succeeds makes of a table. -/
def write (t : Table Capability) : Op → Table Capability
  | .submit name c? _ | .decorate ⟨name, _⟩ c? => c?.elim t (t.put name)
  | .unregister name => t.erase name

end Op

/-- What becomes of a registry; an operation that fails changes nothing. -/
def after (r : Registry) : List Op → Registry
  | [] => r
  | op :: ops =>
    match op.attempt reachable r with
    | .ok r' => r'.after ops
    | .error _ => r.after ops

/-- The operations among some that succeed, one after the other. -/
def successes (r : Registry) : List Op → List Op
  | [] => []
  | op :: ops =>
    match op.attempt reachable r with
    | .ok r' => op :: r'.successes ops
    | .error _ => r.successes ops

variable {reachable} {r r' : Registry}

/-! ### One operation -/

theorem register_eq_ok_iff {able : Except Fault Bool} {name : String} {c : Capability}
    {replace : Bool} : r.register able name c replace = .ok r' ↔
      (able = .ok true ∧ (replace = true ∨ r.entries.get? name = none)) ∧
        r' = { r with entries := r.entries.put name c } := by
  have htaken : (r.entries.has name && !replace) = true ↔
      ¬(replace = true ∨ r.entries.get? name = none) := by
    cases replace <;> simp [Dictionary.has, Option.isSome_iff_ne_none]
  match able with
  | .error fault => simp [register, bind, Except.bind]
  | .ok false => simp [register, bind, Except.bind, throw, throwThe, MonadExceptOf.throw]
  | .ok true =>
      by_cases h : replace = true ∨ r.entries.get? name = none
      · have hfree := Bool.eq_false_iff.2 (mt htaken.1 (not_not_intro h))
        simp [register, bind, Except.bind, hfree, h, pure, Except.pure, @eq_comm _ r']
      · simp [register, bind, Except.bind, htaken.2 h, h, throw, throwThe, MonadExceptOf.throw]

theorem submit_eq_ok_iff {name : String} {c? : Option Capability} {replace : Bool} :
    (r.submit reachable name c? replace).map Prod.snd = .ok r' ↔
      (∀ c ∈ c?, reachable c = .ok true ∧ (replace = true ∨ r.entries.get? name = none)) ∧
        r' = { r with entries := c?.elim r.entries (r.entries.put name) } := by
  cases c? with
  | none => simp [submit, Except.map, @eq_comm _ r']
  | some c =>
      have hsnd : (r.submit reachable name (some c) replace).map Prod.snd =
          r.register (reachable c) name c replace := by
        rw [submit]
        cases r.register (reachable c) name c replace <;> rfl
      rw [hsnd, register_eq_ok_iff]
      simp

/-- **One operation** succeeds if the table admits it, and then writes what it has to write. -/
theorem Op.attempt_eq_ok_iff (op : Op) : op.attempt reachable r = .ok r' ↔
    op.Admitted reachable r.entries ∧ r' = { r with entries := op.write r.entries } := by
  cases op with
  | submit name c? replace => exact submit_eq_ok_iff
  | decorate d c? => exact submit_eq_ok_iff
  | unregister name => simp [attempt, Admitted, write, Registry.unregister, @eq_comm _ r']

/-! ### Any row of operations -/

theorem entries_after (ops : List Op) : (r.after reachable ops).entries =
    (r.successes reachable ops).foldl Op.write r.entries := by
  induction ops generalizing r with
  | nil => rfl
  | cons op ops ih =>
      rw [after, successes]
      cases hop : op.attempt reachable r with
      | error fault => exact ih
      | ok r' =>
          obtain ⟨-, rfl⟩ := op.attempt_eq_ok_iff.1 hop
          exact ih

theorem successes_of_ofEntries {entries : List (String × Option Capability)}
    (h : (entries.foldlM (fun r entry => (Op.ofEntry entry).attempt reachable r) r) = .ok r') :
    r.successes reachable (entries.map Op.ofEntry) = entries.map Op.ofEntry ∧
      r.after reachable (entries.map Op.ofEntry) = r' := by
  induction entries generalizing r with
  | nil =>
      cases h
      exact ⟨rfl, rfl⟩
  | cons entry entries ih =>
      rw [List.foldlM_cons] at h
      cases hop : (Op.ofEntry entry).attempt reachable r with
      | error fault =>
          rw [hop] at h
          cases h
      | ok r₁ =>
          rw [hop] at h
          obtain ⟨hall, hafter⟩ := ih h
          simp only [List.map_cons, successes, after, hop, hall, hafter, and_self]

variable (reachable) in
/-- Everything in a registry for a role was found reachable. -/
structure Sound (role : Role) (r : Registry) : Prop where
  sort : r.sort = .role role
  entries : ∀ {name : String} {c : Capability}, r.entries.get? name = some c →
    reachable c = .ok true

namespace Sound

variable {role : Role}

theorem get?_write {op : Op} {name : String} {c : Capability} (h : r.Sound reachable role)
    (hop : op.Admitted reachable r.entries) (hget : (op.write r.entries).get? name = some c) :
    reachable c = .ok true := by
  have hput : ∀ {taken : String} {c? : Option Capability}, (∀ c ∈ c?, reachable c = .ok true) →
      (c?.elim r.entries (r.entries.put taken)).get? name = some c → reachable c = .ok true := by
    intro taken c? hnew hget
    cases c? with
    | none => exact h.entries hget
    | some new =>
        by_cases hname : name = taken
        · subst hname
          obtain rfl : new = c := by simpa using hget
          exact hnew new rfl
        · exact h.entries ((r.entries.get?_put_of_ne new hname).symm.trans hget)
  cases op with
  | submit taken c? replace => exact hput (fun c hc => (hop c hc).1) hget
  | decorate d c? => exact hput (fun c hc => (hop c hc).1) hget
  | unregister taken =>
      have hname : name ≠ taken := by
        rintro rfl
        simp [Op.write] at hget
      exact h.entries ((r.entries.get?_erase_of_ne hname).symm.trans hget)

theorem after (h : r.Sound reachable role) (ops : List Op) :
    (r.after reachable ops).Sound reachable role := by
  induction ops generalizing r with
  | nil => exact h
  | cons op ops ih =>
      rw [Registry.after]
      cases hop : op.attempt reachable r with
      | error fault => exact ih h
      | ok r' =>
          obtain ⟨hadmitted, rfl⟩ := op.attempt_eq_ok_iff.1 hop
          exact ih ⟨h.sort, h.get?_write hadmitted⟩

end Sound

end Registry

/-! ### Calls -/

namespace Host

variable {host host' : Host}

/-- Whether the registry for a role accepts a capability of the host. -/
def accepts (host : Host) (role : Role) : Capability → Except Fault Bool :=
  host.isReachable (Registry.Sort.role role).method

theorem selected_of_isReachable {method : Method} {c : Capability}
    (h : host.isReachable method c = .ok true) :
    ∃ f, host.selected method c = .ok f ∧ f.isCallable = true := by
  unfold isReachable at h
  unfold selected
  cases hmethod : host.methodOf method c with
  | error fault => simp [hmethod, bind, Except.bind] at h
  | ok f? =>
      cases f? with
      | none =>
          refine ⟨itself c, rfl, ?_⟩
          simpa [hmethod, bind, Except.bind, pure, Except.pure] using h
      | some f =>
          refine ⟨_, rfl, ?_⟩
          cases hf : f.isCallable with
          | true => exact hf
          | false => simpa [hmethod, bind, Except.bind, pure, Except.pure, hf] using h

theorem selected_congr (h : ∀ v name, host'.findAttribute v name = host.findAttribute v name)
    (method : Method) (c : Capability) : host'.selected method c = host.selected method c := by
  have hmethod : host'.methodOf method c = host.methodOf method c := by
    cases c with
    | routine id style => rfl
    | value v => rw [methodOf, methodOf, h]
  rw [selected, selected, hmethod]

end Host

namespace Seat

variable {ω τ : Type}

/-- The replies of what can be called: a routine, a callable or a member function was entered. -/
inductive Enters (seat : Seat ω) (serve : Service ω) (room : Nat) (list : Value)
    (args : List Value) (context : Value) (h : Heap) (w : ω) : Reply ω → Prop
  | routine (id : Nat) (via : String) : Enters seat serve room list args context h w
      (seat.callRoutine serve id via list args context h w)
  | callable (id : Nat) : Enters seat serve room list args context h w
      (seat.callValue serve id [list, context] h w)
  | member (receiver : Value) (member : Member) : Enters seat serve room list args context h w
      (match member.call (seat.host w).label (room - 1) receiver [list, context] h with
        | (result, h) => (result, h, w))

theorem enters_callCallee (seat : Seat ω) (serve : Service ω) (room : Nat) {f : Host.Callee}
    (hf : f.isCallable = true) (list : Value) (args : List Value) (context : Value) (h : Heap)
    (w : ω) : seat.Enters serve room list args context h w
      (seat.callCallee serve room f list args context h w) := by
  match f with
  | .routine id via => exact .routine id via
  | .value (.fn id) => exact .callable id
  | .value (.method receiver member) => exact .member receiver member
  | .inert => cases hf

/-- Whether a world offers a registry for a role, and attributes as a host has them. -/
structure Offers (seat : Seat ω) (role : Role) (r : Registry) (host : Host) (w : ω) : Prop where
  registry : (seat.host w).registry role = r
  attributes : ∀ v key, (seat.host w).findAttribute v key = host.findAttribute v key

section Scripts

variable {seat : Seat ω} {serve : Nat → Service ω} {env : Setting ω τ} {s : State ω τ} {role : Role}
  {name : String} {c : Capability} {f : Host.Callee} (hbinding : env.binding = seat.binding serve)
  (hget : ((seat.host s.world).registry role).entries.get? name = some c)

include hbinding hget

theorem runFrom_registered (line : Line) :
    (Exec.registered env role (.word name) line).runFrom s = (.ok name, s) := by
  have hthere : env.binding.isRegistered role name s.world = true := by
    simp only [hbinding, Seat.binding, Dictionary.has, hget, Option.isSome_some]
  simp only [Exec.registered, Exec.runFrom_read, hthere]
  rfl

variable (hselected : (seat.host s.world).selected
  ((seat.host s.world).registry role).sort.method c = .ok f)

include hselected

theorem runFrom_lookup (hcode : (seat.host s.world).code (.lookup role name) = none) (room : Nat) :
    (Exec.consult env room (.lookup role name)).runFrom s = (.ok none, s) := by
  have hconsult : env.binding.consult room (.lookup role name) s.heap s.world =
      (.ok none, s.heap, s.world) := by
    simp only [hbinding, Seat.binding, Seat.consult, Seat.runCode, hcode, Seat.flaw?, hget,
      Option.bind_some, hselected]
  rw [Exec.consult, show (Exec.onWorld _).runFrom s = _ from Exec.runFrom_onWorld _ _ _ _ _,
    hconsult]
  rfl

theorem enters_invokeIn (hf : f.isCallable = true) (room : Nat) (args : List Value) (line : Line) :
    ∃ result heap world, seat.Enters (serve room) room (s.heap.newList args.toArray).1 args
        env.context (s.heap.newList args.toArray).2 s.world (result, heap, world) ∧
      (Exec.onWorld (Exec.invokeIn env.binding env.context room role name args line)).runFrom s =
        (result.mapError fun fault => .fault (Exec.wrapped (.ok name) line fault),
          { s with heap, world }) := by
  have hinvoke : env.binding.invoke room role name args env.context s.heap s.world =
      seat.callCallee (serve room) room f (s.heap.newList args.toArray).1 args env.context
        (s.heap.newList args.toArray).2 s.world := by
    simp only [hbinding, Seat.binding, Seat.invoke, Seat.callWithin, hget, hselected]
  rcases hreply : env.binding.invoke room role name args env.context s.heap s.world with
    ⟨result, heap, world⟩
  refine ⟨result, heap, world, ?_, ?_⟩
  · rw [← hreply, hinvoke]
    exact enters_callCallee seat (serve room) room hf _ args env.context _ s.world
  · simp only [Exec.onWorld, Exec.runFrom_ofStep, Exec.invokeIn, hreply]
    cases result <;> rfl

end Scripts

end Seat

/-- **What is registered can be called.**  After any row of operations on a registry for a role, its
table is what the operations that succeeded make of an empty one, the entries it started with
included; a further operation succeeds exactly if the table admits it, so no name is taken twice
without being replaced; and for every entry something callable is selected.  A script that calls the
name, wherever the host has its seat and while attributes are what they were, finds it registered
and can look it up, unless code of the host for that fails; and if that leaves registry and
attributes what they were, it enters what was selected, and its reply is what comes out of that. -/
theorem registered_callable (host : Host) (role : Role)
    (entries : List (String × Option Capability)) (built : Registry) (ops : List Registry.Op)
    (hbuilt : Registry.ofEntries (.role role) (host.accepts role) entries = .ok built) :
    ∃ r, built.after (host.accepts role) ops = r ∧
      r.entries = (entries.map Registry.Op.ofEntry ++
        built.successes (host.accepts role) ops).foldl Registry.Op.write .empty ∧
      (∀ op : Registry.Op, (∃ r', op.attempt (host.accepts role) r = .ok r') ↔
        op.Admitted (host.accepts role) r.entries) ∧
      ∀ name c, r.entries.get? name = some c → ∃ f,
        host.selected r.sort.method c = .ok f ∧ f.isCallable = true ∧
        ∀ {ω τ : Type} (seat : Seat ω) (serve : Nat → Seat.Service ω) (env : Setting ω τ),
          env.binding = seat.binding serve →
          ∀ s : State ω τ, seat.Offers role r host s.world →
          ∀ (room : Nat) (args : List Value) (line : Line),
            (Exec.registered env role (.word name) line).runFrom s = (.ok name, s) ∧
            ((seat.host s.world).code (.lookup role name) = none →
              (Exec.consult env room (.lookup role name)).runFrom s = (.ok none, s)) ∧
            ∀ answer s', (Exec.consult env room (.lookup role name)).runFrom s = (.ok answer, s') →
              seat.Offers role r host s'.world →
              ∃ result heap world, seat.Enters (serve room) room
                  (s'.heap.newList args.toArray).1 args env.context
                  (s'.heap.newList args.toArray).2 s'.world (result, heap, world) ∧
                (Exec.callNamed env room role name args line).runFrom s =
                  (result.mapError fun fault => .fault (Exec.wrapped (.ok name) line fault),
                    { s' with heap, world }) := by
  obtain ⟨hall, hstart⟩ := Registry.successes_of_ofEntries hbuilt
  have hempty : (Registry.empty (.role role)).Sound (host.accepts role) role := ⟨rfl, nofun⟩
  have hsound := (hstart ▸ hempty.after (entries.map Registry.Op.ofEntry)).after ops
  refine ⟨_, rfl, ?_, fun op => ?_, fun name c hget => ?_⟩
  · rw [Registry.entries_after, ← hstart, Registry.entries_after, hall, List.foldl_append]
    rfl
  · simp only [Registry.Op.attempt_eq_ok_iff, exists_and_left, exists_eq, and_true]
  · obtain ⟨f, hselected, hf⟩ := Host.selected_of_isReachable (hsound.entries hget)
    rw [← hsound.sort] at hselected
    refine ⟨f, hselected, hf, fun seat serve env hbinding s hoffers room args line => ?_⟩
    have hthere : ∀ w, seat.Offers role _ host w →
        ((seat.host w).registry role).entries.get? name = some c :=
      fun w hw => hw.registry ▸ hget
    have hchosen : ∀ w, seat.Offers role (built.after (host.accepts role) ops) host w →
        (seat.host w).selected ((seat.host w).registry role).sort.method c = .ok f := by
      intro w hw
      rw [hw.registry, Host.selected_congr hw.attributes, hselected]
    refine ⟨Seat.runFrom_registered hbinding (hthere _ hoffers) line, fun hcode => ?_,
      fun answer s' hlookup hoffers' => ?_⟩
    · exact Seat.runFrom_lookup hbinding (hthere _ hoffers) (hchosen _ hoffers) hcode room
    · obtain ⟨result, heap, world, henters, hcall⟩ := Seat.enters_invokeIn hbinding
        (hthere _ hoffers') (hchosen _ hoffers') hf room args line
      refine ⟨result, heap, world, henters, ?_⟩
      have hdiscard : (discard (Exec.consult env room (.lookup role name))).runFrom s = (.ok (), s') :=
        Exec.runFrom_bind_of_ok hlookup
      rw [Exec.callNamed, Exec.runFrom_bind_of_ok hdiscard, hcall]

/-- A name that is taken is refused, what cannot be called is refused too, and a decorator replaces
what the registry started with: a script then enters the routine that was put under the
decorator. -/
theorem registered_callable_decorated :
    let entries : List (String × Option Capability) := [("SAY", some (.routine 0 .direct))]
    let ops : List Registry.Op := [.submit "SAY" (some (.routine 1 .both)) false,
      .submit "ASK" (some (.value (.whole 5))) true, .submit "SAY" none true,
      .decorate ⟨"SAY", true⟩ (some (.routine 2 (.only .invoke))), .unregister "ASK"]
    let last : Registry := ⟨.role .executor, ⟨[("SAY", .routine 2 (.only .invoke))]⟩⟩
    let env : Setting Host Unit := ⟨Host.binding, ⟨⟨9, "9"⟩, ⟨9, "9"⟩⟩, none, .null⟩
    let s : State Host Unit := ⟨{}, { executors := last }, .start .empty, ()⟩
    ∃ built, Registry.ofEntries (.role .executor) (({} : Host).accepts .executor) entries =
        .ok built ∧ built.after (({} : Host).accepts .executor) ops = last ∧
      (Exec.registered env .executor (.word "SAY") (.number 1)).runFrom s = (.ok "SAY", s) ∧
      ∃ reply, Host.seat.Enters Host.serve 9 (.list 0) [] .null { lists := #[#[]] } s.world reply := by
  intro entries ops last env s
  refine ⟨_, rfl, rfl, ?_⟩
  obtain ⟨r, hr, -, -, hentries⟩ :=
    registered_callable {} .executor entries _ ops rfl
  obtain ⟨f, -, -, hscript⟩ := hentries "SAY" (.routine 2 (.only .invoke)) (hr ▸ rfl)
  obtain ⟨hfound, hlookup, hcalls⟩ := hscript Host.seat (fun _ => Host.serve) env rfl s
    ⟨hr, fun _ _ => rfl⟩ 9 [] (.number 1)
  obtain ⟨_, _, _, henters, -⟩ := hcalls none s (hlookup rfl) ⟨hr, fun _ _ => rfl⟩
  exact ⟨hfound, _, henters⟩

end TriggerEngine
