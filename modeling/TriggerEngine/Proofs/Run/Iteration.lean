/-
**What loops go through.**

A loop over a range counts from the bound that it was given to the other one, and a loop over a
list, a text or a mapping goes through what that held when the loop was entered.  The body may do
what it likes meanwhile: it may set the variable of the loop, change the list, loop over the same
things with the same variable, or go on with the next round early.  None of that changes what the
next round starts with.  Only leaving the loop and stopping the run do.

Main definitions:

* `Element`, `Element.Is` — what a loop comes across, and the values that are it;
* `Value.elements?`, `Element.between` — what is gone through;
* `Round`, `Rounds` — the executions of the body, one after the other.

Main results:

* `Rounds.forEach`, `Rounds.forRange` — the rounds of a loop;
* `Rounds.item`, `Rounds.length_eq` — what they start with, and how many there are;
* `iteration_fixed` — **loops go through what there was when they were entered**.
-/

import TriggerEngine.Proofs.Run.Ending

set_option autoImplicit false

namespace TriggerEngine

variable {ω τ : Type}

/-! ### Elements -/

/-- What a loop comes across. -/
inductive Element where
  /-- An item of a list or a key of a mapping. -/
  | value (v : Value)
  /-- A character of a text, which is a text by itself. -/
  | character (c : Char)
  /-- A whole number. -/
  | number (n : Int)

/-- Whether a value is what a loop comes across; where a number or a text comes from is left
open. -/
def Element.Is : Element → Value → Prop
  | .value v, w => w = v
  | .character c, w => ∃ mark, w = .str (String.singleton c) mark
  | .number n, w => ∃ mark, w = .int n mark

/-- The whole numbers from the first one up to the last one, which is left out. -/
def Element.between (first last : Int) : List Element :=
  (List.range (last - first).toNat).map fun i : Nat => .number (first + i)

/-- What a list, a text or a mapping holds. -/
def Value.elements? (h : Heap) : Value → Option (List Element)
  | .list ref => some ((h.list ref).toList.map .value)
  | .map ref => some ((h.map ref).toList.map fun entry => .value entry.1)
  | .str s _ => some (s.toList.map .character)
  | _ => none

theorem is_newTexts (chars : List Char) : ∀ h : Heap,
    List.Forall₂ Element.Is (chars.map .character)
      (h.newTexts (chars.map String.singleton)).1 := by
  induction chars with
  | nil => intro h; exact .nil
  | cons c rest ih =>
      intro h
      refine .cons ?_ (ih _)
      show ∃ mark, Value.ofText (String.singleton c) (.made h.marks) = _
      unfold Value.ofText
      split
      · exact ⟨_, rfl⟩
      · exact ⟨_, rfl⟩

theorem newTexts_frame (texts : List String) : ∀ h : Heap,
    (h.newTexts texts).2.lists = h.lists ∧ (h.newTexts texts).2.maps = h.maps := by
  induction texts with
  | nil => intro h; exact ⟨rfl, rfl⟩
  | cons s rest ih => intro h; exact ih _

/-! ### Rounds -/

/-- How a state follows another one when a variable is given a value: nothing else is different,
except for the marks of numbers and texts that were made. -/
structure State.Gives (name : Name) (v : Value) (s s' : State ω τ) : Prop where
  lists : s'.heap.lists = s.heap.lists
  maps : s'.heap.maps = s.heap.maps
  world : s'.world = s.world
  progress : s'.progress =
    { s.progress with locals := s.progress.locals.put (s.progress.locals.nameFor name) v }
  watch : s'.watch = s.watch

theorem Dictionary.names_put {κ α : Type} [DecidableEq κ] (t : Dictionary κ α) (key : κ) (a : α) :
    (t.put key a).names = if key ∈ t.names then t.names else t.names ++ [key] := by
  obtain ⟨entries⟩ := t
  induction entries with
  | nil => rfl
  | cons entry rest ih =>
      obtain ⟨k, b⟩ := entry
      by_cases hk : k = key
      · simp [names, put, putIn, hk]
      · simp only [names, put] at ih
        simp only [names, put, putIn, beq_iff_eq, hk, if_false, List.map_cons, ih, List.mem_cons,
          Ne.symm hk, false_or]
        exact apply_ite (List.cons k) _ _ _

theorem Name.agrees_self (name : Name) : name.agrees name = true := by
  simp [agrees]

theorem Locals.nameFor_put (locals : Locals) (name : Name) (v : Value) :
    Locals.nameFor (locals.put (locals.nameFor name) v) name = locals.nameFor name := by
  have hname : ((locals.put ((locals.names.find? name.agrees).getD name) v).names.find?
      name.agrees).getD name = (locals.names.find? name.agrees).getD name := by
    rw [Dictionary.names_put]
    rcases hfind : locals.names.find? name.agrees with - | key
    · have hnew : name ∉ locals.names := fun hmem =>
        List.find?_eq_none.1 hfind name hmem name.agrees_self
      rw [Option.getD_none, if_neg hnew, List.find?_append, hfind, Option.none_or,
        List.find?_cons_of_pos name.agrees_self, Option.getD_some]
    · rw [Option.getD_some, if_pos (List.mem_of_find?_eq_some hfind), hfind, Option.getD_some]
  cases name with
  | word word => rfl
  | _ => exact hname

theorem State.Gives.get? {name : Name} {v : Value} {s s' : State ω τ} (h : s.Gives name v s') :
    s'.progress.locals.get? (s'.progress.locals.nameFor name) = some v := by
  rw [h.progress, Locals.nameFor_put, Dictionary.get?_put]

/-- An execution of the body of a loop: the state in which it starts, its result and the state in
which it ends. -/
structure Round (ω τ : Type) where
  start : State ω τ
  result : Except Stop Unit
  finish : State ω τ

/-- The rounds of a loop from a state on, and what the loop comes to.  Each round starts where the
one before it ended, with the next element in the variable of the loop. -/
inductive Rounds (name : Name) (body : Exec ω τ Unit) :
    List Element → State ω τ → List (Round ω τ) → Except Stop Unit × State ω τ → Prop
  | done {s : State ω τ} : Rounds name body [] s [] (.ok (), s)
  | again {e : Element} {v : Value} {rest : List Element} {s : State ω τ} {r : Round ω τ}
      {rounds : List (Round ω τ)} {out : Except Stop Unit × State ω τ} :
      e.Is v → s.Gives name v r.start → body.runFrom r.start = (r.result, r.finish) →
      Exec.heard r.result = .ok true → Rounds name body rest r.finish rounds out →
      Rounds name body (e :: rest) s (r :: rounds) out
  | left {e : Element} {v : Value} {rest : List Element} {s : State ω τ} {r : Round ω τ} :
      e.Is v → s.Gives name v r.start → body.runFrom r.start = (r.result, r.finish) →
      Exec.heard r.result = .ok false → Rounds name body (e :: rest) s [r] (.ok (), r.finish)
  | stopped {e : Element} {v : Value} {rest : List Element} {s : State ω τ} {r : Round ω τ}
      {stop : Stop} :
      e.Is v → s.Gives name v r.start → body.runFrom r.start = (r.result, r.finish) →
      Exec.heard r.result = .error stop →
      Rounds name body (e :: rest) s [r] (.error stop, r.finish)

namespace Rounds

variable {name : Name} {body : Exec ω τ Unit} {elements : List Element} {s : State ω τ}
  {rounds : List (Round ω τ)} {out : Except Stop Unit × State ω τ}

theorem cons {e : Element} {v : Value} {s₁ : State ω τ} {next : Exec ω τ Unit} (he : e.Is v)
    (hs : s.Gives name v s₁)
    (hnext : ∀ s', ∃ rounds, Rounds name body elements s' rounds (next.runFrom s')) :
    ∃ rounds, Rounds name body (e :: elements) s rounds
      ((Exec.round body >>= fun goesOn => if goesOn then next else pure ()).runFrom s₁) := by
  have hround := Exec.runFrom_round body s₁
  rcases hheard : Exec.heard (body.runFrom s₁).1 with stop | goesOn
  · rw [hheard] at hround
    rw [Exec.runFrom_bind_of_error hround]
    exact ⟨_, stopped (r := ⟨s₁, _, _⟩) he hs rfl hheard⟩
  · rw [hheard] at hround
    rw [Exec.runFrom_bind_of_ok hround]
    cases goesOn with
    | false => exact ⟨_, left (r := ⟨s₁, _, _⟩) he hs rfl hheard⟩
    | true =>
        obtain ⟨rounds, hrounds⟩ := hnext (body.runFrom s₁).2
        exact ⟨_, again (r := ⟨s₁, _, _⟩) he hs rfl hheard hrounds⟩

variable (name body) in
theorem forEach {items : List Value} (h : List.Forall₂ Element.Is elements items) :
    ∀ s : State ω τ, ∃ rounds,
      Rounds name body elements s rounds ((Exec.forEach name body items).runFrom s) := by
  induction h with
  | nil => intro s; exact ⟨[], done⟩
  | cons he _ ih => intro s; exact cons he ⟨rfl, rfl, rfl, rfl, rfl⟩ ih

variable (name body) in
theorem forRange (count : Nat) : ∀ (first : Int) (s : State ω τ), ∃ rounds,
    Rounds name body ((List.range count).map fun i : Nat => .number (first + i)) s rounds
      ((Exec.forRange name body count first).runFrom s) := by
  induction count with
  | zero => intro first s; exact ⟨[], done⟩
  | succ count ih =>
      intro first s
      have hrest : ((List.range (count + 1)).map fun i : Nat => Element.number (first + i)) =
          .number first :: (List.range count).map fun i : Nat => .number (first + 1 + i) := by
        rw [List.range_succ_eq_map, List.map_cons, List.map_map, Nat.cast_zero, add_zero]
        refine congrArg _ (List.map_congr_left fun i _ => congrArg Element.number ?_)
        rw [Nat.cast_succ, add_assoc, add_comm 1]
      rw [hrest]
      refine cons (v := (s.heap.newNumber (.int first)).1) ?_ ⟨rfl, rfl, rfl, rfl, rfl⟩
        (ih (first + 1))
      show ∃ mark, Value.ofNumber (.int first) (.made s.heap.marks) = _
      unfold Value.ofNumber
      dsimp only
      split
      · exact ⟨_, rfl⟩
      · exact ⟨_, rfl⟩

theorem of_marked {s' : State ω τ} (h : Rounds name body elements s' rounds out)
    (hlists : s'.heap.lists = s.heap.lists) (hmaps : s'.heap.maps = s.heap.maps)
    (hworld : s'.world = s.world) (hprogress : s'.progress = s.progress) (hwatch : s'.watch = s.watch)
    (hmarks : elements = [] → s' = s) : Rounds name body elements s rounds out := by
  have hgives : ∀ {v s₁}, s'.Gives name v s₁ → s.Gives name v s₁ := fun h =>
    ⟨h.lists.trans hlists, h.maps.trans hmaps, h.world.trans hworld,
      by rw [h.progress, hprogress], h.watch.trans hwatch⟩
  cases h with
  | done => exact hmarks rfl ▸ done
  | again he hs hrun hheard hrest => exact again he (hgives hs) hrun hheard hrest
  | left he hs hrun hheard => exact left he (hgives hs) hrun hheard
  | stopped he hs hrun hheard => exact stopped he (hgives hs) hrun hheard

/-- **The `i`-th round starts with the `i`-th element.** -/
theorem item (h : Rounds name body elements s rounds out) :
    ∀ (i : Nat) (r : Round ω τ), rounds[i]? = some r →
      ∃ e v, elements[i]? = some e ∧ e.Is v ∧
        r.start.progress.locals.get? (r.start.progress.locals.nameFor name) = some v := by
  induction h with
  | done => intro i r hr; cases hr
  | again he hs _ _ _ ih =>
      rintro (- | i) r hr
      · obtain rfl := Option.some.inj hr
        exact ⟨_, _, rfl, he, hs.get?⟩
      · exact ih i r hr
  | left he hs _ _ | stopped he hs _ _ =>
      rintro (- | i) r hr
      · obtain rfl := Option.some.inj hr
        exact ⟨_, _, rfl, he, hs.get?⟩
      · cases hr

/-- **There is a round for each element**, unless one of them ends the loop. -/
theorem length_eq (h : Rounds name body elements s rounds out)
    (hrounds : ∀ r ∈ rounds, Exec.heard r.result = .ok true) : rounds.length = elements.length := by
  induction h with
  | done => rfl
  | again _ _ _ _ _ ih => exact congrArg Nat.succ (ih fun r hr => hrounds r (.tail _ hr))
  | left _ _ _ hheard => cases hheard.symm.trans (hrounds _ (.head _))
  | stopped _ _ _ hheard => cases hheard.symm.trans (hrounds _ (.head _))

end Rounds

/-! ### Loops of scripts -/

/-- What a loop does with some elements, from a state on.  Its body is executed in rounds, and the
`i`-th of them starts with the `i`-th element in the variable of the loop.  There is a round for
each element, unless one of them ends otherwise than by coming to its end or going on with the next
one. -/
def Exec.GoesThrough (name : Name) (body : Exec ω τ Unit) (elements : List Element) (s : State ω τ)
    (out : Except Stop Unit × State ω τ) : Prop :=
  ∃ rounds, Rounds name body elements s rounds out ∧
    (∀ (i : Nat) (r : Round ω τ), rounds[i]? = some r →
      ∃ e v, elements[i]? = some e ∧ e.Is v ∧
        r.start.progress.locals.get? (r.start.progress.locals.nameFor name) = some v) ∧
    ((∀ r ∈ rounds, ∀ stop, r.result = .error stop →
        ∃ text engine, stop = .fault (.next text engine)) →
      rounds.length = elements.length)

theorem Rounds.goesThrough {name : Name} {body : Exec ω τ Unit} {elements : List Element}
    {s : State ω τ} {rounds : List (Round ω τ)} {out : Except Stop Unit × State ω τ}
    (h : Rounds name body elements s rounds out) : Exec.GoesThrough name body elements s out := by
  refine ⟨rounds, h, h.item, fun hends => h.length_eq fun r hr => ?_⟩
  rcases hresult : r.result with stop | ⟨⟩
  · obtain ⟨text, engine, rfl⟩ := hends r hr stop hresult
    rfl
  · rfl

theorem is_value {ι : Type} (f : ι → Value) (items : List ι) :
    List.Forall₂ Element.Is (items.map fun item => .value (f item)) (items.map f) := by
  induction items with
  | nil => exact .nil
  | cons item rest ih => exact .cons rfl ih

theorem Exec.goesThrough_iterate (env : Setting ω τ) (room : Nat) (name : Name) (line : Line)
    (body : Exec ω τ Unit) {v : Value} {s : State ω τ} {elements : List Element}
    (h : v.elements? s.heap = some elements) :
    GoesThrough name body elements s ((iterate env room name v line body).runFrom s) := by
  cases v with
  | list ref =>
      obtain rfl := Option.some.inj h
      obtain ⟨rounds, hrounds⟩ := Rounds.forEach name body
        (is_value id (s.heap.list ref).toList) s
      rw [List.map_id] at hrounds
      exact hrounds.goesThrough
  | map ref =>
      obtain rfl := Option.some.inj h
      obtain ⟨rounds, hrounds⟩ := Rounds.forEach name body
        (is_value Prod.fst (s.heap.map ref).toList) s
      exact hrounds.goesThrough
  | str text mark =>
      obtain rfl := Option.some.inj h
      -- The texts of the characters are made before the first round.
      obtain ⟨rounds, hrounds⟩ := Rounds.forEach name body
        (is_newTexts text.toList s.heap)
        { s with heap := (s.heap.newTexts (text.toList.map String.singleton)).2 }
      obtain ⟨hlists, hmaps⟩ := newTexts_frame (text.toList.map String.singleton) s.heap
      refine (hrounds.of_marked hlists hmaps rfl rfl rfl fun hnil => ?_).goesThrough
      rw [List.map_eq_nil_iff.1 hnil]
      rfl
  | _ => cases h

/-- **Loops go through what there was when they were entered.**  A loop between two whole numbers
goes through the numbers from the first one up to the other one, and a loop over a list, a text or a
mapping goes through the items, characters or keys that it had when the loop was entered: in every
state and whatever the body does. -/
theorem iteration_fixed (env : Setting ω τ) (name : Name) (source body : Node) (line : Line)
    (room : Nat) (s : State ω τ) :
    (∀ (bound : Node) (first last : Value) (s₁ s₂ : State ω τ) (a b : Int),
      (Exec.eval env source room).runFrom s = (.ok first, s₁) →
      (Exec.eval env bound room).runFrom s₁ = (.ok last, s₂) →
      first.int? = some a → last.int? = some b →
      Exec.GoesThrough name (Exec.nested env body room) (Element.between a b) s₂
        ((Exec.execute env (.iteration name source (some bound) body line) room).runFrom s)) ∧
    ∀ (v : Value) (s₁ : State ω τ) (elements : List Element),
      (Exec.eval env source room).runFrom s = (.ok v, s₁) → v.elements? s₁.heap = some elements →
      Exec.GoesThrough name (Exec.nested env body room) elements s₁
        ((Exec.execute env (.iteration name source none body line) room).runFrom s) := by
  constructor
  · intro bound first last s₁ s₂ a b hfirst hlast ha hb
    have hbounds : (Source.ofBounds env source bound line room).runFrom s =
        (.ok (.range a b), s₂) := by
      rw [Source.ofBounds, Exec.runFrom_bind_of_ok hfirst, Exec.runFrom_bind_of_ok hlast]
      simp only [Exec.rangeBound, ha, hb]
      rfl
    rw [Exec.execute_iteration_some, Exec.runFrom_bind_of_ok hbounds]
    obtain ⟨rounds, hrounds⟩ := Rounds.forRange name (Exec.nested env body room) (b - a).toNat a s₂
    exact hrounds.goesThrough
  · intro v s₁ elements hv helements
    rw [show Exec.execute env (.iteration name source none body line) room =
      Exec.eval env source room >>= fun v =>
        Exec.iterate env room name v line (Exec.nested env body room) from rfl,
      Exec.runFrom_bind_of_ok hv]
    exact Exec.goesThrough_iterate env room name line _ helements

/-- A loop over a list that is emptied in its first round. -/
theorem iteration_fixed_cleared :
    let line : Line := .number 1
    let env : Setting Host Unit := ⟨Host.binding, ⟨⟨99, "99"⟩, ⟨9, "9"⟩⟩, none, .null⟩
    let items : Node := .ident "items" line
    let body : Node := .block [.expression (.call (.member items "clear" line) [] line) line] line
    let heap : Heap := { lists := #[#[.whole 5, .whole 6]] }
    let s : State Host Unit := ⟨heap, {}, .start ⟨[("items", .list 0)]⟩, ()⟩
    let r := (Exec.execute env (.iteration "x" items none body line) 30).runFrom s
    (r.2.heap.list 0).size = 0 ∧ ∃ s₁ : State Host Unit, s₁.heap = heap ∧
      Exec.GoesThrough "x" (Exec.nested env body 30) [.value (.whole 5), .value (.whole 6)] s₁ r := by
  intro line env items body heap s r
  refine ⟨by decide +kernel, _, ?_, (iteration_fixed env "x" items body line 30 s).2 (.list 0) _ _
    rfl rfl⟩
  rfl

end TriggerEngine
