/-
**Runs that differ by a renaming.**

Start a run from two states that are the same but for the names of lists and marks: the one may have
been reached by way of more other runs than the other.  If the program only reads what is outside
of it, it does the same from both.  Its results differ by the renaming, it fails with the same
faults, and it leaves states that are again the same but for names.

Main definitions:

* `Node.IsReadOnly` — nodes that call nothing and assign no global;
* `Renaming.locals`, `Renaming.progress` — what a run keeps after renaming;
* `Translation` — a renaming that the world and the watcher of a run respect;
* `Translation.Carries` — computations that do the same but for names.

Main results:

* `Translation.evaluate`, `Translation.execute` — expressions and statements are carried over;
* `Translation.run` — **a run that only reads the world does the same but for names**.
-/

import TriggerEngine.Proofs.Run.Dependence
import TriggerEngine.Proofs.Value.Renaming

set_option autoImplicit false

namespace TriggerEngine

variable {ω τ α β γ δ : Type}

/-- Whether a node calls nothing and assigns no global. -/
def Node.IsReadOnly : Node → Prop
  | .reference _ _ _ _ => False
  | .call _ _ _ => False
  | .assign (.global _ _) _ _ => False
  | _ => True

/-! ### What a run keeps -/

namespace Renaming

variable (σ : Renaming)

/-- Local scope after renaming. -/
def locals (scope : Locals) : Locals :=
  ⟨scope.entries.map fun entry => (entry.1, σ.value entry.2)⟩

/-- What a run keeps, after renaming. -/
def progress (p : Progress) : Progress :=
  { p with locals := σ.locals p.locals, cooldownMark := σ.mark p.cooldownMark }

@[simp] theorem nameFor_locals (scope : Locals) (name : Name) :
    (σ.locals scope).nameFor name = scope.nameFor name := by
  have hnames : (σ.locals scope).names = scope.names := by
    simp only [locals, Dictionary.names, List.map_map]
    rfl
  cases name <;> simp only [Locals.nameFor, hnames]

theorem get?_locals (scope : Locals) (name : Name) :
    (σ.locals scope).get? name = (scope.get? name).map σ.value := by
  obtain ⟨entries⟩ := scope
  show (entries.map fun entry => (entry.1, σ.value entry.2)).lookup name =
    (entries.lookup name).map σ.value
  induction entries with
  | nil => rfl
  | cons entry rest ih =>
      obtain ⟨key, v⟩ := entry
      simp only [List.map_cons, List.lookup_cons, ih]
      cases name == key <;> rfl

theorem locals_put (scope : Locals) (name : Name) (v : Value) :
    σ.locals (scope.put name v) = (σ.locals scope).put name (σ.value v) := by
  obtain ⟨entries⟩ := scope
  refine congrArg Dictionary.mk ?_
  show (Dictionary.putIn name v entries).map (fun entry => (entry.1, σ.value entry.2)) =
    Dictionary.putIn name (σ.value v) (entries.map fun entry => (entry.1, σ.value entry.2))
  induction entries with
  | nil => rfl
  | cons entry rest ih =>
      simp only [List.map_cons, Dictionary.putIn]
      split
      · rfl
      · rw [List.map_cons, ih]

@[simp] theorem cooldownValue_progress (p : Progress) :
    (σ.progress p).cooldownValue = σ.value p.cooldownValue := by
  simp only [Progress.cooldownValue, progress]
  cases p.cooldownEnd with
  | none => rfl
  | some time => exact (σ.value_ofNumber time p.cooldownMark).symm

end Renaming

theorem Heap.Renamed.plainMember? {σ : Renaming} {h h' : Heap} (R : h.Renamed σ h') (v : Value)
    (name : String) :
    (Exec.plainMember? h v name = none ∧ Exec.plainMember? h' (σ.value v) name = none) ∨
      ∃ u k k', Exec.plainMember? h v name = some (u, k) ∧
        Exec.plainMember? h' (σ.value v) name = some (σ.value u, k') ∧ k.Renamed σ k' := by
  cases v with
  | str s mark =>
      simp only [Renaming.value, Exec.plainMember?]
      cases Member.find? Member.ofText name with
      | none => exact .inl ⟨rfl, rfl⟩
      | some member => exact .inr ⟨_, h, h', rfl, rfl, R⟩
  | list ref =>
      simp only [Renaming.value, Exec.plainMember?]
      cases Member.find? Member.ofList name with
      | none => exact .inl ⟨rfl, rfl⟩
      | some member => exact .inr ⟨_, h, h', rfl, rfl, R⟩
  | float x mark =>
      simp only [Renaming.value, Exec.plainMember?]
      split
      · exact .inr ⟨_, h, h', rfl, rfl, R⟩
      · obtain ⟨hzero, R'⟩ := R.newNumber (.float 0)
        exact .inr ⟨_, _, _, rfl, congrArg some (Prod.ext hzero rfl), R'⟩
      · exact .inr ⟨_, h, h', rfl, rfl, R⟩
      · exact .inl ⟨rfl, rfl⟩
  | int | bool =>
      simp only [Renaming.value, Exec.plainMember?]
      split
      case h_6 => exact .inl ⟨rfl, rfl⟩
      all_goals exact .inr ⟨_, h, h', rfl, rfl, R⟩
  | _ => exact .inl ⟨rfl, rfl⟩

/-! ### Translations -/

/-- Whether an inquiry is about what is called under a name. -/
def Inquiry.isLookup : Inquiry → Bool
  | .lookup _ _ => true
  | _ => false

/-- Whether the world does nothing when it is asked for something that is no call. -/
def Binding.IsSilent (binding : Binding ω) (w : ω) : Prop :=
  ∀ room inquiry h, inquiry.isLookup = false → binding.consult room inquiry h w = (.ok none, h, w)

/-- A renaming together with a relation between worlds that do nothing but answer: what a run finds
in related worlds differs by the renaming, and its watcher answers alike in them. -/
structure Translation (env : Setting ω τ) extends Renaming where
  /-- Which worlds are taken for each other. -/
  Matches : ω → ω → Prop
  label : ∀ {w w'}, Matches w w' → env.binding.label w' = env.binding.label w
  isRegistered : ∀ {w w'}, Matches w w' → ∀ role name,
    env.binding.isRegistered role name w' = env.binding.isRegistered role name w
  readAttribute : ∀ {w w'}, Matches w w' → ∀ id name,
    env.binding.readAttribute id name w' =
      (env.binding.readAttribute id name w).map toRenaming.value
  item? : ∀ {w w'}, Matches w w' → ∀ room id i h h', ∃ found,
    env.binding.item? room id i h w = (found, h, w) ∧
      env.binding.item? room id i h' w' = (found.map (Option.map toRenaming.value), h', w')
  silent : ∀ {w w'}, Matches w w' → env.binding.IsSilent w ∧ env.binding.IsSilent w'
  further : ∀ {w w'}, Matches w w' → ∀ v name,
    env.binding.further (toRenaming.value v) name w' =
      (env.binding.further v name w).map toRenaming.value
  memory : ∀ {w w'}, Matches w w' → env.binding.memory w' = env.binding.memory w
  readGlobal : ∀ {w w'}, Matches w w' → ∀ name,
    env.binding.readGlobal name w' = toRenaming.value (env.binding.readGlobal name w)
  clock : ∀ {w w'}, Matches w w' → env.binding.clock w' = env.binding.clock w
  watcher : ∀ {ask}, env.watcher = some ask → ∀ room node p t {h h' w w'},
    Heap.Renamed toRenaming h h' → Matches w w' →
      (ask room node (toRenaming.progress p) h' w' t).1 = (ask room node p h w t).1 ∧
      Matches (ask room node p h w t).2.1 (ask room node (toRenaming.progress p) h' w' t).2.1 ∧
      (ask room node (toRenaming.progress p) h' w' t).2.2 = (ask room node p h w t).2.2

namespace Translation

variable {env : Setting ω τ} (T : Translation env)

/-- Whether states are the same but for names. -/
structure Relates (s s' : State ω τ) : Prop where
  heap : s.heap.Renamed T.toRenaming s'.heap
  world : T.Matches s.world s'.world
  progress : s'.progress = T.progress s.progress
  watch : s'.watch = s.watch

/-- Whether computations do the same from states that are the same but for names; `act` is what
renaming does with results. -/
def Carries (act : α → β) (x : Exec ω τ α) (x' : Exec ω τ β) : Prop :=
  ∀ s s', T.Relates s s' →
    (x'.runFrom s').1 = (x.runFrom s).1.map act ∧
      T.Relates (x.runFrom s).2 (x'.runFrom s').2

variable {T} {act : α → β} {next : γ → δ}

theorem Relates.withProgress {s s' : State ω τ} (R : T.Relates s s') {f : Progress → Progress}
    (hf : ∀ p, T.progress (f p) = f (T.progress p)) :
    T.Relates { s with progress := f s.progress } { s' with progress := f s'.progress } where
  heap := R.heap
  world := R.world
  progress := by
    show f s'.progress = T.progress (f s.progress)
    rw [R.progress, hf]
  watch := R.watch

namespace Carries

theorem map_id_result (result : Except Stop α) : result.map id = result := by
  cases result <;> rfl

theorem of_still {x : Exec ω τ α} {x' : Exec ω τ β} (result : Except Stop α)
    (hx : ∀ s, x.runFrom s = (result, s)) (hx' : ∀ s, x'.runFrom s = (result.map act, s)) :
    T.Carries act x x' := by
  intro s s' R
  rw [hx, hx']
  exact ⟨rfl, R⟩

theorem pure (a : α) : T.Carries act (Pure.pure a) (Pure.pure (act a)) :=
  of_still (.ok a) (fun _ => rfl) fun _ => rfl

theorem fail (fault : Fault) :
    T.Carries act (Exec.fail fault : Exec ω τ α) (Exec.fail fault : Exec ω τ β) :=
  of_still (.error (.fault fault)) (fun _ => rfl) fun _ => rfl

theorem ofExcept (result : Except Fault α) :
    T.Carries act (Exec.ofExcept result) (Exec.ofExcept (result.map act)) := by
  cases result with
  | ok a => exact pure a
  | error fault => exact fail fault

theorem ofPlain (result : Except Fault α) :
    T.Carries id (Exec.ofExcept result) (Exec.ofExcept result) := by
  cases result with
  | ok a => exact pure a
  | error fault => exact fail fault

theorem bind {x : Exec ω τ α} {x' : Exec ω τ β} {f : α → Exec ω τ γ} {f' : β → Exec ω τ δ}
    (hx : T.Carries act x x') (hf : ∀ a, T.Carries next (f a) (f' (act a))) :
    T.Carries next (x >>= f) (x' >>= f') := by
  intro s s' R
  obtain ⟨hresult, R'⟩ := hx s s' R
  rw [Exec.runFrom_bind, Exec.runFrom_bind]
  rcases hrun : x.runFrom s with ⟨result, s₁⟩
  rcases hrun' : x'.runFrom s' with ⟨result', s₁'⟩
  rw [hrun, hrun'] at hresult R'
  dsimp only at hresult R'
  subst hresult
  cases result with
  | ok a => exact hf a s₁ s₁' R'
  | error stop => exact ⟨rfl, R'⟩

theorem read {f : State ω τ → Exec ω τ α} {f' : State ω τ → Exec ω τ β}
    (hf : ∀ s s', T.Relates s s' → T.Carries act (f s) (f' s')) :
    T.Carries act (get >>= f) (get >>= f') :=
  fun s s' R => hf s s' R s s' R

theorem onHeap {f : Heap → α × Heap} {f' : Heap → β × Heap}
    (hf : ∀ h h', Heap.Renamed T.toRenaming h h' →
      (f' h').1 = act (f h).1 ∧ Heap.Renamed T.toRenaming (f h).2 (f' h').2) :
    T.Carries act (Exec.onHeap f) (Exec.onHeap f') := by
  intro s s' R
  obtain ⟨hresult, hheap⟩ := hf _ _ R.heap
  exact ⟨congrArg Except.ok hresult, hheap, R.world, R.progress, R.watch⟩

theorem onWorld {f : Heap → ω → Except Fault α × Heap × ω} {f' : Heap → ω → Except Fault β × Heap × ω}
    (hf : ∀ h h' w w', T.Matches w w' → ∃ result, f h w = (result, h, w) ∧
      f' h' w' = (result.map act, h', w')) :
    T.Carries act (Exec.onWorld f) (Exec.onWorld f') := by
  rintro ⟨h, w, p, t⟩ ⟨h', w', p', t'⟩ R
  obtain ⟨result, hresult, hresult'⟩ := hf h h' w w' R.world
  rw [Exec.runFrom_onWorld, Exec.runFrom_onWorld, hresult, hresult']
  refine ⟨?_, R⟩
  cases result with
  | ok a => rfl
  | error fault => rfl

theorem silently {room : Nat} {inquiry inquiry' : Inquiry} (hi : inquiry.isLookup = false)
    (hi' : inquiry'.isLookup = false) {f : Option Value → Exec ω τ α}
    {g : Option Value → Exec ω τ β} (hf : T.Carries act (f none) (g none)) :
    T.Carries act (Exec.consult env room inquiry >>= f) (Exec.consult env room inquiry' >>= g) := by
  rintro ⟨h, w, p, t⟩ ⟨h', w', p', t'⟩ R
  obtain ⟨hsilent, hsilent'⟩ := T.silent R.world
  have hasked : (Exec.consult env room inquiry).runFrom ⟨h, w, p, t⟩ =
      (.ok none, ⟨h, w, p, t⟩) := by
    rw [Exec.consult, Exec.runFrom_onWorld, hsilent room inquiry h hi]
    rfl
  have hasked' : (Exec.consult env room inquiry').runFrom ⟨h', w', p', t'⟩ =
      (.ok none, ⟨h', w', p', t'⟩) := by
    rw [Exec.consult, Exec.runFrom_onWorld, hsilent' room inquiry' h' hi']
    rfl
  rw [Exec.runFrom_bind_of_ok hasked, Exec.runFrom_bind_of_ok hasked']
  exact hf _ _ R

theorem onProgress {f f' : Progress → Progress}
    (hf : ∀ p, f' (T.progress p) = T.progress (f p)) :
    T.Carries id (Exec.onProgress f) (Exec.onProgress f') := by
  intro s s' R
  refine ⟨rfl, R.heap, R.world, ?_, R.watch⟩
  show f' s'.progress = T.progress (f s.progress)
  rw [R.progress, hf]

theorem ite {c : Prop} [Decidable c] {x y : Exec ω τ α} {x' y' : Exec ω τ β}
    (hx : T.Carries act x x') (hy : T.Carries act y y') :
    T.Carries act (if c then x else y) (if c then x' else y') := by
  split
  · exact hx
  · exact hy

theorem guarded {c : Prop} [Decidable c] {x x' : Exec ω τ PUnit} {y : Exec ω τ α}
    {y' : Exec ω τ β} (hx : T.Carries id x x') (hy : T.Carries act y y') :
    T.Carries act (if c then x >>= fun _ => y else y) (if c then x' >>= fun _ => y' else y') :=
  ite (hx.bind fun _ => hy) hy

theorem guardedBy {c : Prop} [Decidable c] {act₁ : γ → δ} {x : Exec ω τ γ} {x' : Exec ω τ δ}
    {z : γ → Exec ω τ PUnit} {z' : δ → Exec ω τ PUnit} {y : Exec ω τ α} {y' : Exec ω τ β}
    (hx : T.Carries act₁ x x') (hz : ∀ a, T.Carries id (z a) (z' (act₁ a)))
    (hy : T.Carries act y y') :
    T.Carries act (if c then x >>= fun a => z a >>= fun _ => y else y)
      (if c then x' >>= fun a => z' a >>= fun _ => y' else y') :=
  ite (hx.bind fun a => (hz a).bind fun _ => hy) hy

theorem onMember {found found' : Option (Value × Heap)} {more more' : Option Value}
    {y y' : Exec ω τ Value} (hy : T.Carries T.value y y') : more' = more.map T.value →
    (found = none ∧ found' = none ∨ ∃ v h h', found = some (v, h) ∧
      found' = some (T.value v, h') ∧ Heap.Renamed T.toRenaming h h') →
    T.Carries T.value
      (match found, more with
        | some (v, h), _ => Exec.onHeap fun _ => (v, h)
        | none, some v => Pure.pure v
        | none, none => y)
      (match found', more' with
        | some (v, h), _ => Exec.onHeap fun _ => (v, h)
        | none, some v => Pure.pure v
        | none, none => y') := by
  rintro rfl (⟨rfl, rfl⟩ | ⟨v, h, h', rfl, rfl, hheap⟩)
  · cases more with
    | none => exact hy
    | some v => exact pure v
  · exact onHeap fun _ _ _ => ⟨rfl, hheap⟩

theorem onOption {found found' : Option Value} {f : Value → Exec ω τ α} {f' : Value → Exec ω τ β}
    {y : Exec ω τ α} {y' : Exec ω τ β} (hf : ∀ v, T.Carries act (f v) (f' (T.value v)))
    (hy : T.Carries act y y') : found' = found.map T.value →
    T.Carries act
      (match found with
        | some v => f v
        | none => y)
      (match found' with
        | some v => f' v
        | none => y') := by
  rintro rfl
  cases found with
  | some v => exact hf v
  | none => exact hy

theorem quoting (line : Line) (expression : Exec.Quotation) (what : String → Mismatch) :
    T.Carries act (Exec.quoting line expression what : Exec ω τ α)
      (Exec.quoting line expression what : Exec ω τ β) :=
  (ofPlain (expression ())).bind fun _ => fail _

theorem discard {x : Exec ω τ α} {x' : Exec ω τ β} (h : T.Carries act x x') :
    T.Carries id (Functor.discard x) (Functor.discard x') :=
  have hbind : ∀ (α : Type) (x : Exec ω τ α),
      Functor.discard x = x >>= fun _ => Pure.pure PUnit.unit := fun _ _ => rfl
  hbind α x ▸ hbind β x' ▸ h.bind fun _ => pure _

/-! ### Into nodes -/

theorem within (room : Nat) {rule : Nat → Exec ω τ α} {rule' : Nat → Exec ω τ β}
    (h : ∀ room, T.Carries act (rule room) (rule' room)) :
    T.Carries act (Exec.within room rule) (Exec.within room rule') := by
  cases room with
  | zero => exact fail _
  | succ room => exact h room

theorem deeper {most : Nat} {limit : Unit → Fault} {x : Exec ω τ α} {x' : Exec ω τ β}
    (h : T.Carries act x x') :
    T.Carries act (Exec.deeper most limit x) (Exec.deeper most limit x') := by
  intro s s' R
  have hdepth : s'.progress.depth = s.progress.depth := by
    rw [R.progress]
    rfl
  by_cases hlimit : most < s.progress.depth + 1
  · rw [Exec.runFrom_deeper_of_lt hlimit, Exec.runFrom_deeper_of_lt (hdepth ▸ hlimit)]
    exact ⟨rfl, R⟩
  · rw [Exec.runFrom_deeper_of_not_lt hlimit, Exec.runFrom_deeper_of_not_lt (hdepth ▸ hlimit)]
    have hdeepened : T.Relates s.deepened s'.deepened :=
      R.withProgress (f := fun p => { p with depth := p.depth + 1 }) fun _ => rfl
    obtain ⟨hresult, R'⟩ := h _ _ hdeepened
    exact ⟨hresult, R'.withProgress (f := fun p => { p with depth := p.depth - 1 }) fun _ => rfl⟩

theorem visit (node : Node) (room : Nat) :
    T.Carries id (Exec.visit env node room) (Exec.visit env node room) := by
  rintro ⟨h, w, p, t⟩ ⟨h', w', p', t'⟩ ⟨hheap, hworld, hprogress, hwatch⟩
  dsimp only at hheap hworld hprogress hwatch
  subst hprogress hwatch
  by_cases hlimit : env.limits.steps.most < p.steps + 1
  · have hlimit' : env.limits.steps.most < (T.progress p).steps + 1 := hlimit
    rw [Exec.runFrom_visit_of_lt hlimit, Exec.runFrom_visit_of_lt hlimit']
    exact ⟨rfl, hheap, hworld, rfl, rfl⟩
  · have hlimit' : ¬env.limits.steps.most < (T.progress p).steps + 1 := hlimit
    cases hw : env.watcher with
    | none =>
        rw [Exec.runFrom_visit_none hlimit hw, Exec.runFrom_visit_none hlimit' hw]
        exact ⟨rfl, hheap, hworld, rfl, rfl⟩
    | some ask =>
        rw [Exec.runFrom_visit_some hlimit hw, Exec.runFrom_visit_some hlimit' hw]
        obtain ⟨hanswer, hworld', hwatch⟩ :=
          T.watcher hw room node { p with steps := p.steps + 1 } t' hheap hworld
        refine ⟨?_, hheap, hworld', rfl, hwatch⟩
        rw [map_id_result]
        exact congrArg Exec.answered hanswer

theorem enter (node : Node) (room : Nat) {rule : Nat → Exec ω τ α} {rule' : Nat → Exec ω τ β}
    (h : ∀ room, T.Carries act (rule room) (rule' room)) :
    T.Carries act (Exec.enter env node room rule) (Exec.enter env node room rule') := by
  match room with
  | 0 => exact fail _
  | 1 => exact (fail _).deeper
  | room + 2 => exact ((visit node room).bind fun _ => guarded (fail _) (h room)).deeper

theorem begin (node : Node) (room : Nat) {rule : Nat → Exec ω τ Unit}
    (h : ∀ room, T.Carries id (rule room) (rule room)) :
    T.Carries id (Exec.begin env node room rule) (Exec.begin env node room rule) :=
  guarded (fail _) ((visit node (room - 1)).bind fun _ => h room)

/-! ### Values -/

theorem truthy (room : Nat) (v : Value) :
    T.Carries id (Exec.truthy env room v) (Exec.truthy env room (T.value v)) := by
  refine silently rfl rfl (read fun s s' R => ?_)
  dsimp only [Option.getD_none]
  rw [R.heap.truthy]
  exact pure _

theorem textOf (room : Nat) (v : Value) :
    T.Carries id (Exec.textOf env room v) (Exec.textOf env room (T.value v)) := by
  refine silently rfl rfl (read fun s s' R => ?_)
  dsimp only [Option.getD_none]
  rw [T.label R.world, R.heap.text]
  split
  · exact pure _
  · exact fail _

theorem builtText (text : String) :
    T.Carries T.value (Exec.builtText text : Exec ω τ Value) (Exec.builtText text) :=
  onHeap fun _ _ R => R.builtText text

theorem newNumber (n : Number) :
    T.Carries T.value (Exec.newNumber n : Exec ω τ Value) (Exec.newNumber n) :=
  onHeap fun _ _ R => R.newNumber n

theorem newList (items : List Value) :
    T.Carries T.value (Exec.newList items : Exec ω τ Value)
      (Exec.newList (items.map T.value)) := by
  refine onHeap fun h h' R => ?_
  rw [← List.map_toArray]
  exact R.newList items.toArray

theorem writtenOf (room : Nat) (v : Value) :
    T.Carries T.value (Exec.writtenOf env room v) (Exec.writtenOf env room (T.value v)) := by
  have htext : T.Carries T.value
      (Exec.textOf env room v >>= fun s =>
        if (v.isNull || v.isBool) = true then Pure.pure (.text s) else Exec.builtText s)
      (Exec.textOf env room (T.value v) >>= fun s =>
        if (v.isNull || v.isBool) = true then Pure.pure (.text s) else Exec.builtText s) :=
    (textOf room v).bind fun s => ite (pure (Value.text s)) (builtText s)
  cases v with
  | str s mark => exact pure (Value.str s mark)
  | _ => exact htext

theorem concatenation (a b : Value) :
    T.Carries T.value (Exec.concatenation a b : Exec ω τ Value)
      (Exec.concatenation (T.value a) (T.value b)) := by
  cases a with
  | str s mark =>
      cases b with
      | str t mark' =>
          exact ite (pure (Value.str t mark')) (ite (pure (Value.str s mark)) (builtText _))
      | _ => exact pure (Value.str s mark)
  | _ => exact pure _

theorem valuesEqual (room : Nat) (a b : Value) :
    T.Carries id (Exec.valuesEqual env room a b)
      (Exec.valuesEqual env room (T.value a) (T.value b)) := by
  refine silently rfl rfl (read fun s s' R => ?_)
  rw [R.heap.valuesEqual?]
  split
  · exact pure _
  · exact fail _

/-! ### Operators -/

theorem numeric (result : Except Number.Trouble Number) :
    T.Carries T.value (Exec.numeric result : Exec ω τ Value) (Exec.numeric result) := by
  cases result with
  | ok n => exact newNumber n
  | error trouble => exact fail _

theorem quotient (line : Line) (b : Number) (result : Except Number.Trouble Number) :
    T.Carries T.value (Exec.quotient line b result : Exec ω τ Value)
      (Exec.quotient line b result) :=
  ite (fail _) (numeric result)

theorem repeatText (v : Value) (text : String) (n : Int) :
    T.Carries T.value (Exec.repeatText env v text n) (Exec.repeatText env (T.value v) text n) := by
  refine read fun s s' R => ?_
  rw [T.memory R.world]
  exact (ofPlain _).bind fun _ => ite (pure v) (builtText _)

theorem signed (op : Operator) (v : Value) (expression : Exec.Quotation) (line : Line) :
    T.Carries T.value (Exec.signed op v expression line : Exec ω τ Value)
      (Exec.signed op (T.value v) expression line) := by
  unfold Exec.signed
  rw [T.number?_value, T.typeName_value]
  split
  · exact quoting _ _ _
  · exact ite (newNumber _) (pure v)

theorem repeatItems_map (memory : Nat) (items : List Value) (n : Int) :
    Exec.repeatItems memory (items.map T.value) n =
      (Exec.repeatItems memory items n).map (List.map T.value) := by
  unfold Exec.repeatItems
  rw [List.length_map]
  cases Exec.repetitions memory items.length n (.plain .memory "") with
  | error fault => rfl
  | ok count =>
      show Except.ok _ = Except.ok _
      rw [List.map_flatten, List.map_replicate]

theorem listSum (r q : Nat) :
    T.Carries T.value (Exec.onHeap fun h => h.newList (h.list r ++ h.list q) : Exec ω τ Value)
      (Exec.onHeap fun h => h.newList (h.list (T.ref r) ++ h.list (T.ref q))) := by
  refine onHeap fun h h' R => ?_
  rw [R.list, R.list, ← Array.map_append]
  exact R.newList _

theorem listTimes (r : Nat) (n : Int) :
    T.Carries T.value
      (get >>= fun s => Exec.ofExcept (Exec.repeatItems (env.binding.memory s.world)
        (s.heap.list r).toList n) >>= fun items => Exec.newList items : Exec ω τ Value)
      (get >>= fun s => Exec.ofExcept (Exec.repeatItems (env.binding.memory s.world)
        (s.heap.list (T.ref r)).toList n) >>= fun items => Exec.newList items) := by
  refine read fun s s' R => ?_
  rw [T.memory R.world, R.heap.list, Array.toList_map, repeatItems_map]
  exact (ofExcept _).bind fun items => newList items

theorem onNumbers {a b : Value} {x y : Exec ω τ Value} {f : Number → Number → Exec ω τ Value}
    (hf : ∀ m n, T.Carries T.value (f m n) (f m n)) (hx : T.Carries T.value x y) :
    T.Carries T.value
      (match a.number?, b.number? with
        | some m, some n => f m n
        | _, _ => x)
      (match (T.value a).number?, (T.value b).number? with
        | some m, some n => f m n
        | _, _ => y) := by
  rw [T.number?_value, T.number?_value]
  split
  · exact hf _ _
  · exact hx

theorem ordered?_value (op : Operator) (a b : Value) :
    Exec.ordered? op (T.value a) (T.value b) = Exec.ordered? op a b := by
  cases a <;> cases b <;> rfl

theorem binary (room : Nat) (op : Operator) (a b : Value) (expression : Exec.Quotation)
    (line : Line) :
    T.Carries T.value (Exec.binary env room op a b expression line)
      (Exec.binary env room op (T.value a) (T.value b) expression line) := by
  have hrefused : T.Carries T.value
      (Exec.quoting line expression fun text => .operator text a.typeName b.typeName :
        Exec ω τ Value)
      (Exec.quoting line expression fun text =>
        .operator text (T.value a).typeName (T.value b).typeName) := by
    rw [T.typeName_value, T.typeName_value]
    exact quoting _ _ _
  cases op with
  | add =>
      have htexts : T.Carries T.value
          (if (Exec.isText a || Exec.isText b) = true then
            Exec.writtenOf env room a >>= fun left =>
              Exec.writtenOf env room b >>= fun right => Exec.concatenation left right
            else Exec.quoting line expression fun text => .operator text a.typeName b.typeName)
          (if (Exec.isText (T.value a) || Exec.isText (T.value b)) = true then
            Exec.writtenOf env room (T.value a) >>= fun left =>
              Exec.writtenOf env room (T.value b) >>= fun right => Exec.concatenation left right
            else Exec.quoting line expression fun text =>
              .operator text (T.value a).typeName (T.value b).typeName) := by
        have htext : ∀ v, Exec.isText (T.value v) = Exec.isText v := fun v => by cases v <;> rfl
        rw [htext, htext]
        refine ite ?_ hrefused
        exact (writtenOf room a).bind fun left => (writtenOf room b).bind fun right =>
          concatenation left right
      have hplain := onNumbers (a := a) (b := b) (fun m n => numeric (m.add n)) htexts
      cases a with
      | list r =>
          cases b with
          | list q => exact listSum r q
          | _ => exact hplain
      | _ => exact hplain
  | sub => exact onNumbers (fun m n => numeric (m.sub n)) hrefused
  | mul =>
      have hplain := onNumbers (a := a) (b := b) (fun m n => numeric (m.mul n)) hrefused
      cases a with
      | str s mark =>
          cases b with
          | int n mark' => exact repeatText (.str s mark) s n
          | _ => exact hplain
      | list r =>
          cases b with
          | int n mark => exact listTimes r n
          | _ => exact hplain
      | _ => exact hplain
  | div => exact onNumbers (fun m n => quotient line n (m.div n)) hrefused
  | mod => exact onNumbers (fun m n => quotient line n (m.mod n)) hrefused
  | eq => exact (valuesEqual room a b).bind fun verdict => pure (Value.bool verdict)
  | ne => exact (valuesEqual room a b).bind fun verdict => pure (Value.bool !verdict)
  | _ =>
      unfold Exec.binary
      dsimp only
      rw [ordered?_value]
      split
      · exact pure (Value.bool _)
      · exact hrefused

/-! ### Items and members -/

theorem placeOf (key : Value) {length length' : Nat} (hlength : length' = length)
    (expression : Exec.Quotation) (line : Line) :
    T.Carries id (Exec.placeOf key length expression line : Exec ω τ Nat)
      (Exec.placeOf (T.value key) length' expression line) := by
  unfold Exec.placeOf
  rw [T.int?_value, T.typeName_value, hlength]
  split
  · exact quoting _ _ _
  · exact ite (pure _) (ite (fail _) (fail _))

theorem itemOf (room : Nat) (target key : Value) (expression target' : Exec.Quotation)
    (line : Line) :
    T.Carries T.value (Exec.itemOf env room target key expression target' line)
      (Exec.itemOf env room (T.value target) (T.value key) expression target' line) := by
  refine read fun s s' R => ?_
  have hother : T.Carries T.value
      (Exec.quoting line target' (.notIndexable · target.typeName) : Exec ω τ Value)
      (Exec.quoting line target' (.notIndexable · (T.value target).typeName)) := by
    rw [T.typeName_value]
    exact quoting _ _ _
  cases target with
  | list ref =>
      have hlist := R.heap.list ref
      have hsize : (s'.heap.list (T.ref ref)).size = (s.heap.list ref).size := by
        rw [hlist, Array.size_map]
      refine (placeOf key hsize expression line).bind fun i => ?_
      have hitem : (s'.heap.list (T.ref ref)).getD i .null =
          T.value ((s.heap.list ref).getD i .null) := by
        rw [hlist, Array.getD_eq_getD_getElem?, Array.getD_eq_getD_getElem?, Array.getElem?_map]
        cases (s.heap.list ref)[i]? <;> rfl
      show T.Carries T.value (Pure.pure _) (Pure.pure ((s'.heap.list (T.ref ref)).getD i .null))
      rw [hitem]
      exact pure _
  | str text mark =>
      exact (placeOf key rfl expression line).bind fun i => onHeap fun _ _ R => R.newText _
  | map ref =>
      show T.Carries T.value _
        (if (!(T.value key).isHashable) = true then _ else _)
      rw [T.isHashable_value, T.unhashable_value]
      refine guarded (fail _) ?_
      refine onOption (fun v => pure v) ?_ (R.heap.mapGet? ref key)
      exact (textOf room key).bind fun _ => fail _
  | _ => exact hother

theorem memberOf (target : Value) (name : Name) (line : Line) :
    T.Carries T.value (Exec.memberOf env target name line)
      (Exec.memberOf env (T.value target) name line) := by
  refine read fun s s' R => ?_
  have hplain := fun word => onMember (fail (.ofCause line (.undefinedMember name)))
    (T.further R.world target word) (R.heap.plainMember? target word)
  cases target with
  | map ref =>
      have hget : name.value?.bind (s'.heap.mapGet? ref) =
          (name.value?.bind (s.heap.mapGet? ref)).map T.value := by
        cases name with
        | word s => exact R.heap.mapGet? ref (.text s)
        | null => exact R.heap.mapGet? ref .null
        | bool b => exact R.heap.mapGet? ref (.bool b)
        | int n => exact R.heap.mapGet? ref (.whole n)
        | float bits => exact R.heap.mapGet? ref (.float (Float.ofBits bits) .shared)
        | row writing => rfl
      exact onOption (fun v => pure v) (fail _) hget
  | null => exact fail _
  | object id kind =>
      cases name with
      | word word =>
          refine guarded (fail _) (onWorld fun h h' w w' hw => ⟨_, rfl, ?_⟩)
          rw [Exec.attributeIn, T.readAttribute hw]
          cases env.binding.readAttribute id word w <;> rfl
      | _ => exact fail _
  | _ =>
      cases name with
      | word word => exact guarded (fail _) (hplain word)
      | _ => exact fail _

/-! ### Names and bounds -/

theorem unheard (room : Nat) {inquiry : Inquiry} (hi : inquiry.isLookup = false) :
    T.Carries id (Functor.discard (Exec.consult env room inquiry))
      (Functor.discard (Exec.consult env room inquiry)) :=
  silently (f := fun _ => Pure.pure ()) (g := fun _ => Pure.pure ()) hi hi (pure ())

theorem globalOf (room : Nat) (name : String) :
    T.Carries T.value (Exec.globalOf env room name) (Exec.globalOf env room name) := by
  refine (unheard room rfl).bind fun _ => read fun s s' R => ?_
  rw [T.readGlobal R.world]
  exact pure _

theorem variableOf (room : Nat) (name : Name) (line : Line) :
    T.Carries T.value (Exec.variableOf env room name line) (Exec.variableOf env room name line) := by
  refine read fun s s' R => ?_
  have hlocal : s'.progress.locals.get? (s'.progress.locals.nameFor name) =
      (s.progress.locals.get? (s.progress.locals.nameFor name)).map T.value := by
    rw [R.progress]
    show (T.locals s.progress.locals).get? ((T.locals s.progress.locals).nameFor name) = _
    rw [T.nameFor_locals, T.get?_locals]
  rw [hlocal]
  cases s.progress.locals.get? (s.progress.locals.nameFor name) with
  | some v => exact pure v
  | none =>
      cases name with
      | word word =>
          refine (globalOf room word).bind fun v => ?_
          cases v with
          | null => exact fail _
          | _ => exact pure _
      | _ => exact fail _

theorem globalName (line : Line) (v : Value) :
    T.Carries id (Exec.globalName line v : Exec ω τ String)
      (Exec.globalName line (T.value v)) := by
  cases v with
  | str s mark => exact pure s
  | _ => exact fail _

theorem rangeBound (v : Value) (line : Line) :
    T.Carries id (Exec.rangeBound v line : Exec ω τ Int) (Exec.rangeBound (T.value v) line) := by
  unfold Exec.rangeBound
  rw [T.int?_value, T.typeName_value]
  split
  · exact pure _
  · exact fail _

theorem misfit (shape : Shape) (text : Except Fault String) :
    T.Carries T.value (Exec.misfit env shape text) (Exec.misfit env shape text) := by
  refine read fun s s' R => ?_
  have hmissing : Exec.missing env s'.world shape = Exec.missing env s.world shape := by
    funext kind name
    simp only [Exec.missing, T.isRegistered R.world]
  rw [hmissing]
  exact fail _

theorem setLocal (name : Name) (v : Value) :
    T.Carries id (Exec.setLocal name v : Exec ω τ Unit) (Exec.setLocal name (T.value v)) := by
  refine onProgress fun p => ?_
  simp only [Renaming.progress, T.nameFor_locals, T.locals_put]

theorem setCooldown (room : Nat) (seconds : Value) (line : Line) :
    T.Carries id (Exec.setCooldown env room seconds line)
      (Exec.setCooldown env room (T.value seconds) line) := by
  have hrefused : ∀ text, T.Carries id
      (Exec.mismatch line (.cooldown text) : Exec ω τ Unit) (Exec.mismatch line (.cooldown text)) :=
    fun _ => fail _
  unfold Exec.setCooldown
  rw [T.number?_value]
  split
  · rename_i n hnumber
    refine guardedBy (textOf room seconds) hrefused
      ((unheard room rfl).bind fun _ => read fun s s' R => ?_)
    rw [T.clock R.world]
    cases (env.binding.clock s.world).add n with
    | ok time => exact (onHeap fun _ _ R => R.newMark).bind fun mark => onProgress fun _ => rfl
    | error trouble => exact fail _
  · exact (textOf room seconds).bind hrefused

/-! ### Loops -/

theorem round {body body' : Exec ω τ Unit} (h : T.Carries id body body') :
    T.Carries id (Exec.round body) (Exec.round body') := by
  intro s s' R
  obtain ⟨hresult, R'⟩ := h s s' R
  rw [Exec.runFrom_round, Exec.runFrom_round]
  refine ⟨?_, R'⟩
  show Exec.heard (body'.runFrom s').1 = (Exec.heard (body.runFrom s).1).map id
  rw [hresult, map_id_result, map_id_result]

theorem rounds : T.Carries id (Exec.rounds env) (Exec.rounds env) := by
  refine read fun s s' R => ?_
  rw [R.progress]
  exact pure _

theorem loop {step step' : Nat → Exec ω τ Bool} (h : ∀ i, T.Carries id (step i) (step' i))
    (fuel : Nat) : ∀ i, T.Carries id (Exec.loop step fuel i) (Exec.loop step' fuel i) := by
  induction fuel with
  | zero => exact fun _ => fail _
  | succ fuel ih => exact fun i => (h i).bind fun _ => ite (ih (i + 1)) (pure ())

theorem repeatWhile {test test' : Exec ω τ Bool} {body body' : Exec ω τ Unit}
    (htest : T.Carries id test test') (hbody : T.Carries id body body') (fuel : Nat) :
    T.Carries id (Exec.repeatWhile test body fuel) (Exec.repeatWhile test' body' fuel) := by
  rw [Exec.repeatWhile_eq_loop _ _ _ 0, Exec.repeatWhile_eq_loop _ _ _ 0]
  exact loop (fun _ => htest.bind fun _ => ite hbody.round (pure false)) fuel 0

end Carries

variable (T) in
/-- What a loop goes through, after renaming. -/
def source : Source → Source
  | .values items => .values (items.map T.value)
  | .range first last => .range first last
  | .sequence id => .sequence id

namespace Carries

theorem item (room : Nat) (source : Source) (i : Nat) :
    T.Carries (Option.map T.value) (source.item env room i) ((T.source source).item env room i) := by
  cases source with
  | values items =>
      show T.Carries _ (Pure.pure items[i]?) (Pure.pure (items.map T.value)[i]?)
      rw [List.getElem?_map]
      exact pure _
  | range first last => exact ite ((newNumber _).bind fun v => pure (some v)) (pure none)
  | sequence id => exact onWorld fun h h' w w' hw => T.item? hw room id i h h'

theorem ofValue (v : Value) (line : Line) :
    T.Carries T.source (Source.ofValue v line : Exec ω τ Source)
      (Source.ofValue (T.value v) line) := by
  refine read fun s s' R => ?_
  have hvalues : ∀ items, T.Carries T.source (Pure.pure (.values items) : Exec ω τ Source)
      (Pure.pure (.values (items.map T.value))) := fun items => pure (Source.values items)
  have hother : T.Carries T.source
      (Exec.mismatch line (.notIterable v.typeName) : Exec ω τ Source)
      (Exec.mismatch line (.notIterable (T.value v).typeName)) := by
    rw [T.typeName_value]
    exact fail _
  cases v with
  | map ref =>
      have hkeys : (s'.heap.map ref).toList.map Prod.fst =
          ((s.heap.map ref).toList.map Prod.fst).map T.value := by
        rw [R.heap.map, Array.toList_map, List.map_map, List.map_map]
        rfl
      show T.Carries T.source _ (Pure.pure (.values ((s'.heap.map ref).toList.map Prod.fst)))
      rw [hkeys]
      exact hvalues _
  | list ref =>
      show T.Carries T.source _ (Pure.pure (.values (s'.heap.list (T.ref ref)).toList))
      rw [R.heap.list, Array.toList_map]
      exact hvalues _
  | str text mark =>
      exact (onHeap fun _ _ R => R.newTexts _).bind fun items => hvalues items
  | object id kind =>
      cases kind with
      | sequence => exact pure (Source.sequence id)
      | _ => exact hother
  | _ => exact hother

theorem each {body : Exec ω τ Unit} (hbody : T.Carries id body body) (room : Nat) (name : Name)
    (source : Source) :
    T.Carries id (source.each env room name body) ((T.source source).each env room name body) := by
  have hround : ∀ i, T.Carries id (source.round env room name body i)
      ((T.source source).round env room name body i) := by
    refine fun i => (item room source i).bind fun found => ?_
    cases found with
    | none => exact pure false
    | some v => exact (setLocal name v).bind fun _ => hbody.round
  intro s s' R
  have hmost : (T.source source).most env s' = source.most env s := by
    cases source with
    | values items => exact congrArg (· + 1) (List.length_map T.value)
    | range first last => rfl
    | sequence id =>
        show env.limits.steps.most + 1 - s'.progress.steps = _
        rw [R.progress]
        rfl
  rw [Source.runFrom_each, Source.runFrom_each, hmost]
  exact loop hround _ 0 s s' R

end Carries

/-! ### Expressions -/

variable (T) in
/-- Whether an expression is evaluated alike. -/
def Evaluates (node : Node) : Prop :=
  ∀ room, T.Carries T.value (Exec.evaluate env node room) (Exec.evaluate env node room)

theorem Evaluates.eval {node : Node} (h : T.Evaluates node) (room : Nat) :
    T.Carries T.value (Exec.eval env node room) (Exec.eval env node room) :=
  .enter node room h

theorem carries_invalidExpression (node : Node) :
    T.Carries T.value
      (Exec.quoting node.line (fun _ => node.format) .invalidExpression : Exec ω τ Value)
      (Exec.quoting node.line (fun _ => node.format) .invalidExpression) :=
  .quoting _ _ _

theorem value_constant (value : Constant) (line : Int) (tag : Nat) :
    T.value (value.value (.literal line tag)) = value.value (.literal line tag) := by
  cases value with
  | int n => exact T.value_ofNumber (.int n) (.literal line tag)
  | float x => exact T.value_ofNumber (.float x) (.literal line tag)
  | str text => exact T.value_ofText text (.literal line tag)
  | _ => rfl

theorem evaluates_binary {left right : Node} (hleft : T.Evaluates left)
    (hright : T.Evaluates right) (op : Operator) (line : Line) :
    T.Evaluates (.binary op left right line) := by
  intro room
  have hboth : T.Carries T.value
      (Exec.eval env right room >>= fun v =>
        Exec.truthy env room v >>= fun b => Pure.pure (.bool b))
      (Exec.eval env right room >>= fun v =>
        Exec.truthy env room v >>= fun b => Pure.pure (.bool b)) :=
    (hright.eval room).bind fun v => (Carries.truthy room v).bind fun b => .pure (Value.bool b)
  cases op with
  | and =>
      exact (hleft.eval room).bind fun v => (Carries.truthy room v).bind fun _ =>
        .ite (.pure (Value.bool false)) hboth
  | or =>
      exact (hleft.eval room).bind fun v => (Carries.truthy room v).bind fun _ =>
        .ite (.pure (Value.bool true)) hboth
  | _ =>
      exact (hleft.eval room).bind fun a => (hright.eval room).bind fun b =>
        .binary room _ a b _ line

theorem evaluates_torn {first : Node} (hfirst : T.Evaluates first) (shape : Shape) :
    T.Evaluates (.torn first shape) := by
  refine fun room => (hfirst.eval room).bind fun v => ?_
  have hfail : T.Carries T.value (Exec.fail shape.tornFault : Exec ω τ Value)
      (Exec.fail shape.tornFault) := .fail _
  dsimp only
  split
  · exact (Carries.truthy room v).bind fun _ => .ite (.pure (Value.bool false)) hfail
  · exact (Carries.truthy room v).bind fun _ => .ite (.pure (Value.bool true)) hfail
  · rw [T.isCallable_value, T.typeName_value]
    exact .guarded (.quoting _ _ _) hfail
  · exact hfail

mutual

/-- **Expressions that only read are carried over.** -/
theorem evaluate : ∀ node : Node, node.Each Node.IsReadOnly → T.Evaluates node
  | .literal _ value line tag, _ => fun _ => by
      have hvalue : T.Carries T.value _ _ := .pure (value.value (.literal line.toInt tag))
      rw [value_constant] at hvalue
      exact hvalue
  | .list items _, heach => fun room =>
      .within room fun room => .within room fun room =>
        (evaluateAll items heach.row room).bind fun values => .newList values
  | .ident name line, _ => fun room => .variableOf room name line
  | .global key line, heach => fun room =>
      .within room fun room => ((evaluate key heach.sub).eval room).bind fun v =>
        (Carries.globalName _ v).bind fun name => .globalOf room name
  | .member target name line, heach => fun room =>
      ((evaluate target heach.sub).eval room).bind fun v => .memberOf v name line
  | .index target key line, heach => fun room =>
      ((evaluate target heach.sub).eval room).bind fun t =>
        ((evaluate key heach.sub).eval room).bind fun k => .itemOf room t k _ _ line
  | .unary op operand line, heach => fun room => by
      refine ((evaluate operand heach.sub).eval room).bind fun v => ?_
      split
      · exact (Carries.truthy room v).bind fun b => .pure (Value.bool !b)
      · exact .signed _ v _ line
  | .sign name operand line, heach => fun room =>
      ((evaluate operand heach.sub).eval room).bind fun v => .signed .add v _ line
  | .binary op left right line, heach =>
      evaluates_binary (evaluate left heach.sub) (evaluate right heach.sub) op line
  | .torn first shape, heach => evaluates_torn (evaluate first heach.sub) shape
  | .reference .., heach | .call .., heach => heach.self.elim
  | .other shape _, _ => fun _ => .misfit shape _
  | .declare .., _ | .assign .., _ | .expression .., _ | .block .., _ | .conditional .., _
  | .repetition .., _ | .iteration .., _ | .leave _, _ | .next _, _ | .cooldown .., _ =>
      fun _ => carries_invalidExpression _

theorem evaluateAll : ∀ nodes : List Node, Node.EachOf Node.IsReadOnly nodes → ∀ room : Nat,
    T.Carries (List.map T.value) (Exec.evaluateAll env nodes room)
      (Exec.evaluateAll env nodes room)
  | [], _, _ => .pure []
  | node :: rest, heach, room =>
      ((evaluate node heach.head).eval room).bind fun v =>
        (evaluateAll rest heach.tail room).bind fun values => .pure (v :: values)

end

theorem eval {node : Node} (heach : node.Each Node.IsReadOnly) (room : Nat) :
    T.Carries T.value (Exec.eval env node room) (Exec.eval env node room) :=
  (evaluate node heach).eval room

/-! ### Statements -/

variable (T) in
/-- Whether a statement is executed alike. -/
def Executes (node : Node) : Prop :=
  ∀ room, T.Carries id (Exec.execute env node room) (Exec.execute env node room)

theorem Executes.exec {node : Node} (h : T.Executes node) (room : Nat) :
    T.Carries id (Exec.exec env node room) (Exec.exec env node room) :=
  .begin node room h

theorem Executes.nested {node : Node} (h : T.Executes node) (room : Nat) :
    T.Carries id (Exec.nested env node room) (Exec.nested env node room) :=
  .within room h.exec

theorem holds {test : Node} (heach : test.Each Node.IsReadOnly) (room : Nat) :
    T.Carries id (Exec.holds env test room) (Exec.holds env test room) :=
  (eval heach room).bind fun v => .truthy room v

theorem carries_checkTarget (target : Node) :
    T.Carries id (Exec.checkTarget target : Exec ω τ Unit) (Exec.checkTarget target) := by
  unfold Exec.checkTarget
  split
  · exact (Carries.ofPlain _).discard.bind fun _ => .ite (.fail _) (.pure ())
  · exact .pure ()

theorem carries_slotOf (target : Node) :
    T.Carries id (Exec.slotOf target : Exec ω τ Name) (Exec.slotOf target) :=
  (Carries.ofPlain _).bind fun _ => .pure _

theorem executes_assign {target value : Node} {line : Line}
    (heach : (Node.assign target value line).Each Node.IsReadOnly) :
    T.Executes (.assign target value line) := by
  intro room
  have hvalue : value.Each Node.IsReadOnly := heach.sub
  cases target with
  | global key l => exact heach.self.elim
  | _ =>
      refine (carries_checkTarget _).bind fun _ => (eval hvalue room).bind fun v => ?_
      exact (carries_slotOf _).bind fun name => .setLocal name v

theorem executes_iteration {name : Name} {source body : Node} {bound : Option Node} {line : Line}
    (heach : (Node.iteration name source bound body line).Each Node.IsReadOnly)
    (hbody : T.Executes body) : T.Executes (.iteration name source bound body line) := by
  intro room
  cases bound with
  | none =>
      have hsource : source.Each Node.IsReadOnly := heach.sub
      rw [Exec.execute_iteration]
      exact ((eval hsource room).bind fun v => .ofValue v line).bind fun values =>
        .each (hbody.nested room) room name values
  | some bound =>
      have hsource : source.Each Node.IsReadOnly := heach.sub
      have hbound : bound.Each Node.IsReadOnly := heach.sub
      have hrange : T.Carries T.source (Source.ofBounds env source bound line room)
          (Source.ofBounds env source bound line room) :=
        (eval hsource room).bind fun first => (eval hbound room).bind fun last =>
          (Carries.rangeBound first line).bind fun m => (Carries.rangeBound last line).bind fun n =>
            .pure (Source.range m n)
      rw [Exec.execute_iteration_some]
      exact hrange.bind fun values => .each (hbody.nested room) room name values

mutual

/-- **Statements that only read are carried over.** -/
theorem execute : ∀ node : Node, node.Each Node.IsReadOnly → T.Executes node
  | .declare name none _, _ => fun _ => .setLocal name .null
  | .declare name (some value) _, heach => fun room =>
      (eval heach.sub room).bind fun v => .setLocal name v
  | .assign _ _ _, heach => executes_assign heach
  | .expression value _, heach => fun room => (eval heach.sub room).discard
  | .conditional test body none line, heach => fun room => by
      have hbody := (execute body heach.sub).nested room
      rw [Exec.execute_conditional]
      exact (holds heach.sub room).bind fun _ => .ite hbody (.pure ())
  | .conditional test body (some otherwise) line, heach => fun room => by
      have hbody := (execute body heach.sub).nested room
      have hotherwise := (execute otherwise heach.sub).nested room
      rw [Exec.execute_conditional_some]
      exact (holds heach.sub room).bind fun _ => .ite hbody hotherwise
  | .block body line, heach => fun room =>
      .within room fun room => .deeper (.within room (executeAll body heach.row))
  | .repetition test body _, heach => fun room =>
      Carries.rounds.bind fun fuel =>
        .repeatWhile (holds heach.sub room) ((execute body heach.sub).nested room) fuel
  | .iteration _ _ none body _, heach | .iteration _ _ (some _) body _, heach =>
      executes_iteration heach (execute body heach.sub)
  | .cooldown seconds line, heach => fun room =>
      (eval heach.sub room).bind fun v => .setCooldown room v line
  | .leave _, _ | .next _, _ | .other _ _, _ | .literal .., _ | .list .., _ | .ident .., _
  | .global .., _ | .reference .., _ | .member .., _ | .index .., _ | .call .., _ | .unary .., _
  | .sign .., _ | .binary .., _ | .torn .., _ => fun _ => .fail _

theorem executeAll : ∀ nodes : List Node, Node.EachOf Node.IsReadOnly nodes → ∀ room : Nat,
    T.Carries id (Exec.execAll env nodes room) (Exec.execAll env nodes room)
  | [], _, _ => .pure ()
  | node :: rest, heach, room =>
      ((execute node heach.head).exec room).bind fun _ => executeAll rest heach.tail room

end

/-! ### Runs -/

variable (T) in
/-- What a run has come to, after renaming. -/
def outcome (o : Outcome) : Outcome :=
  { o with locals := T.locals o.locals }

theorem Relates.inPhase {s s' : State ω τ} (R : T.Relates s s') (phase : Phase) :
    T.Relates (Interpreter.inPhase phase s) (Interpreter.inPhase phase s') :=
  R.withProgress (f := fun p => { p with phase := phase }) fun _ => rfl

/-- **A run that only reads the world does the same but for names.** -/
theorem run {program : Program} (hprogram : Node.EachOf Node.IsReadOnly program) (room : Nat)
    {s s' : State ω τ} (R : T.Relates s s') :
    (Interpreter.run env room program s').1 =
        (Interpreter.run env room program s).1.map T.outcome ∧
      T.Relates (Interpreter.run env room program s).2
        (Interpreter.run env room program s').2 := by
  have hphase : s'.progress.phase = s.progress.phase := by
    rw [R.progress]
    rfl
  by_cases hidle : s.progress.phase = .idle
  · rw [Interpreter.run_of_idle hidle, Interpreter.run_of_idle (hphase.trans hidle)]
    obtain ⟨hresult, R'⟩ := executeAll program hprogram room _ _ (R.inPhase .running)
    rcases hrun : (Exec.execAll env program room).runFrom (Interpreter.inPhase .running s) with
      ⟨result, s₁⟩
    rcases hrun' : (Exec.execAll env program room).runFrom (Interpreter.inPhase .running s') with
      ⟨result', s₁'⟩
    rw [hrun, hrun'] at hresult R'
    dsimp only at hresult R'
    subst hresult
    have houtcome : ∀ phase, Interpreter.outcome (Interpreter.inPhase phase s₁').progress =
        T.outcome (Interpreter.outcome (Interpreter.inPhase phase s₁).progress) := by
      intro phase
      rw [(R'.inPhase phase).progress]
      rfl
    match result with
    | .ok () => exact ⟨congrArg Except.ok (houtcome _), R'.inPhase _⟩
    | .error .abort => exact ⟨congrArg Except.ok (houtcome _), R'.inPhase _⟩
    | .error (.fault fault) => exact ⟨rfl, R'.inPhase _⟩
  · rw [Interpreter.run_of_not_idle hidle, Interpreter.run_of_not_idle (hphase ▸ hidle), hphase]
    exact ⟨rfl, R⟩

end Translation

end TriggerEngine
