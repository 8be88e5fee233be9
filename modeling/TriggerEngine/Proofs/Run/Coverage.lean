/-
**What a run touches is listed.**

The nodes of a program and what it names of its host are listed without running it.  A run keeps to
these lists.  It goes from a node to nodes of the same tree only, along whatever way its conditions,
loops and failures make it go; so the watcher is asked about nodes of the list, a routine is called
under a name that is listed, and so is a global that is read or set by a name written out.  When the
run itself finds fault with something, it says so at the line of one of the nodes.

Main definitions:

* `Task.Within` — tasks that keep to nodes with some property;
* `Fault.IsLocated` — faults that blame one of some lines, or none.

Main results:

* `Exec.Leads.within`, `Interpreter.Course.within` — a run keeps to the nodes of its program;
* `index_covers_run` — **what a run touches is listed**.
-/

import TriggerEngine.Proofs.Run.Blame
import TriggerEngine.Proofs.Run.Dependence
import TriggerEngine.Proofs.Run.Lifecycle
import TriggerEngine.Proofs.Syntax.Coverage

set_option autoImplicit false

namespace TriggerEngine

variable {ω τ : Type}

/-! ### Tasks -/

/-- Whether an expression for the name of a global says what the name is, if it is a text that is
written out. -/
def Node.Spells (key : Node) (name : String) : Prop :=
  ∀ text line tag, key = .literal .string (.str text) line tag → name = text

/-- Whether a task keeps to nodes with some property. -/
def Task.Within (P : Node → Prop) : Task → Prop
  | .statements nodes => Node.EachOf P nodes
  | .statement node => node.Each P
  | .execution node => node.Each P
  | .repetition test body => test.Each P ∧ body.Each P
  | .iteration _ _ body _ => body.Each P
  | .expressions nodes => Node.EachOf P nodes
  | .expression node => node.Each P
  | .evaluation node => node.Each P
  | .visit node => P node
  | .named role name _ => ∃ args line, P (.reference role (.word name) args line)
  | .called _ _ => ∃ callee args line, P (.call callee args line)
  | .member _ name => ∃ target line, P (.member target name line)
  | .outer name => ∃ line, P (.ident (.word name) line)
  | .read key name => (∃ line, P (.global key line)) ∧ key.Spells name
  | .write key name _ => (∃ line, P (.global key line)) ∧ key.Spells name

namespace Exec

variable {env : Setting ω τ}

theorem exists_of_eval_eq_ok {node : Node} {room : Nat} {s s' : State ω τ} {v : Value}
    (h : (eval env node room).runFrom s = (.ok v, s')) :
    ∃ room' s₁ s₂, (evaluate env node room').runFrom s₁ = (.ok v, s₂) := by
  match room with
  | 0 => cases h
  | room + 1 =>
      unfold eval enter at h
      dsimp only at h
      by_cases hdepth : env.limits.depth.most < s.progress.depth + 1
      · rw [runFrom_deeper_of_lt hdepth] at h
        cases h
      · rw [runFrom_deeper_of_not_lt hdepth] at h
        have hrule := (Prod.mk.inj h).1
        match room with
        | 0 => cases hrule
        | room + 1 =>
            obtain ⟨_, s₁, -, hrest⟩ := exists_of_bind_eq_ok (Prod.ext hrule rfl)
            split at hrest
            · obtain ⟨_, _, hnone, -⟩ := exists_of_bind_eq_ok hrest
              cases hnone
            · exact ⟨room, s₁, _, hrest⟩

theorem spells_of_eval {key : Node} {room : Nat} {s s' : State ω τ} {name : String} {mark : Mark}
    (h : (eval env key room).runFrom s = (.ok (.str name mark), s')) : key.Spells name := by
  rintro text line tag rfl
  obtain ⟨room', s₁, s₂, hvalue⟩ := exists_of_eval_eq_ok h
  have hstr : Constant.value (.literal line.toInt tag) (.str text) = .str name mark :=
    Except.ok.inj (Prod.mk.inj hvalue).1
  unfold Constant.value Value.ofText at hstr
  dsimp only at hstr
  split at hstr <;> cases hstr <;> rfl

theorem Leads.within {P : Node → Prop} {m m' : Moment ω τ} (h : Leads env m m')
    (hm : m.task.Within P) : m'.task.Within P := by
  cases h with
  | firstStatement | firstExpression => exact hm.head
  | laterStatements _ | laterExpressions _ => exact hm.tail
  | statementVisit _ | expressionVisit _ => exact hm.self
  | list | arguments _ | calleeArguments _ _ | block _ => exact hm.row
  | outer _ => exact ⟨_, hm.self⟩
  | globalKey | memberTarget | indexTarget | indexKey _ | callee | unary | sign | left | right _ _ _
  | rightAnd _ | rightOr _ | torn | declared | assignedKey | assignedGlobal _ | assigned _ _
  | expression | alternative _
  | bound _ | iteration _ | range _ | cooldown => exact hm.sub
  | globalRead hkey => exact ⟨⟨_, hm.self⟩, spells_of_eval hkey⟩
  | named _ _ _ | member _ => exact ⟨_, _, hm.self⟩
  | called _ _ _ => exact ⟨_, _, _, hm.self⟩
  | @globalWrite key value line line' room s s₁ s₂ name mark v hkey hvalue =>
      have htarget : Node.Each P (.global key line) :=
        hm.sub fun n hn => by simp only [Node.nodes, List.mem_cons, List.mem_append] at hn ⊢; tauto
      exact ⟨⟨line, htarget.self⟩, spells_of_eval hkey⟩
  | @test _ _ otherwise | @consequence _ _ otherwise => cases otherwise <;> exact hm.sub
  | repetition => exact ⟨hm.sub, hm.sub⟩
  | @source _ _ _ bound => cases bound <;> exact hm.sub
  | repetitionTest => exact hm.1
  | repetitionBody _ => exact hm.2
  | _ => exact hm

end Exec

theorem Interpreter.Course.within {env : Setting ω τ} {room : Nat} {program : Program}
    {s : State ω τ} {m : Moment ω τ} (h : Course env room program s m) :
    m.task.Within (· ∈ Node.nodesOf program) := by
  induction h with
  | refl => exact fun _ hnode => hnode
  | tail _ hleads ih => exact hleads.within ih

/-! ### Lines -/

/-- Whether the line that a fault blames, if it blames one, is one of some lines. -/
def Fault.IsLocated (lines : Int → Prop) (fault : Fault) : Prop :=
  ∀ detail, ("line", detail) ∈ fault.details →
    detail = .value .null ∨ ∃ n, lines n ∧ detail = .int n

namespace Fault

variable {lines : Int → Prop}

theorem isLocated_of_details_eq_nil {fault : Fault} (h : fault.details = []) :
    fault.IsLocated lines := by
  intro detail hdetail
  rw [h] at hdetail
  cases hdetail

theorem IsBlunt.isLocated {fault : Fault} (h : fault.IsBlunt) : fault.IsLocated lines := by
  refine isLocated_of_details_eq_nil ?_
  cases h <;> rfl

theorem line_notMem_causeDetails (cause : Cause) (detail : Detail) :
    ("line", detail) ∉ causeDetails cause := by
  cases cause <;> simp [causeDetails]

theorem isLocated_script_none (cause : Cause) : (Fault.script cause none).IsLocated lines := by
  intro detail hdetail
  rcases List.mem_cons.1 hdetail with hline | hother
  · exact .inl (Prod.mk.inj hline).2
  · exact (line_notMem_causeDetails cause detail hother).elim

theorem isLocated_ofCause {n : Int} (hn : lines n) (cause : Cause) :
    (ofCause (.number n) cause).IsLocated lines := by
  unfold ofCause
  dsimp only
  split
  · intro detail hdetail
    rcases List.mem_cons.1 hdetail with hline | hother
    · exact .inr ⟨n, hn, (Prod.mk.inj hline).2⟩
    · exact (line_notMem_causeDetails cause detail hother).elim
  · exact IsBlunt.digits.isLocated

theorem surfaced_isLocated {P : Fault → Prop} {fault : Fault} (h : P fault ∨ fault.IsLocated lines) :
    P (Interpreter.surfaced fault) ∨ (Interpreter.surfaced fault).IsLocated lines := by
  unfold Interpreter.surfaced
  split
  · exact .inr (isLocated_script_none _)
  · exact h

theorem tolerates_isLocated (lines : Int → Prop) (env : Setting ω τ) (start : ω) :
    Exec.Tolerates env start fun fault => env.Raises start fault ∨ fault.IsLocated lines where
  blunt h := .inr h.isLocated
  passed hraises _ := .inl hraises
  consult hw hfault := .inl (.consult hw hfault)
  item hw hfault := .inl (.item hw hfault)
  watch hwatcher hw hfault := .inl (.watch hwatcher hw hfault)

end Fault

/-- The lines of the nodes that are listed in a shape. -/
def Shape.HasLine (shape : Shape) (n : Int) : Prop :=
  ∃ node ∈ shape.walk, node.line = n

namespace Program

variable {program : Program} (hprogram : Node.EachOf Node.IsScripted program)

include hprogram

theorem hasLine {node : Node} (hnode : node ∈ Node.nodesOf program) :
    ∃ n, (toShape program).HasLine n ∧ node.line = .number n ∧
      ∀ cause, node.faultAt cause = .ofCause (.number n) cause := by
  obtain ⟨n, hline, hfault⟩ := (hprogram node hnode).exists_line
  obtain ⟨-, -, -, n', hline', hshape⟩ := (hprogram node hnode).toShape_eq
  obtain rfl : n = n' := by
    rw [hline] at hline'
    exact Line.number.inj hline'
  exact ⟨n, ⟨_, mem_walk hprogram hnode, hshape⟩, hline, hfault⟩

/-- How a run fails that is not failed from outside. -/
def locating (env : Setting ω τ) (start : ω) : Exec.Pairing env env.limits env.watcher :=
  Exec.Fails.pairing (Fault.tolerates_isLocated (toShape program).HasLine env start)
    (· ∈ Node.nodesOf program)
    (fun hnode cause => by
      obtain ⟨n, hn, hline, -⟩ := hasLine hprogram hnode
      rw [hline]
      exact .inr (Fault.isLocated_ofCause hn cause))
    (fun hnode cause => by
      obtain ⟨n, hn, -, hfault⟩ := hasLine hprogram hnode
      rw [hfault]
      exact .inr (Fault.isLocated_ofCause hn cause))
    fun hnode => (hprogram _ hnode).1

end Program

/-! ### Runs -/

/-- **What a run touches is listed.**  Of a program that was compiled, every node about which the
watcher is asked is in the list of its nodes; every routine that is called, and every global that is
read or set by a name that is written out, is in the list of its references; and a fault that does
not come from outside blames the line of one of its nodes, if it blames one.  The moments of a run
that are spoken of here are all at which it turns to its host: another host that does the same at
these, or for all routines that are listed, makes no difference. -/
theorem index_covers_run {file source : String} {program : Program}
    (hcompile : compile file source = .ok program) (env : Setting ω τ) (room : Nat) (heap : Heap)
    (world : ω) (locals : Table Value) (memory : τ) :
    let shape := Program.toShape program
    let start : State ω τ := ⟨heap, world, .start locals, memory⟩
    let r := Interpreter.run env room program start
    let noted := Interpreter.run env.noted room program ⟨heap, world, .start locals, memory, []⟩
    (r = (noted.1, noted.2.mapWatch Prod.fst) ∧
      ∀ seen ∈ noted.2.watch.2, seen.node.toShape ∈ shape.walk) ∧
    (∀ m, Interpreter.Course env room program start m →
      (∀ role name args, m.task = .named role name args →
        ∃ n, ⟨role.referenceKind, .word name, n⟩ ∈ shape.references) ∧
      ∀ text line tag name,
        m.task = .read (.literal .string (.str text) line tag) name ∨
          (∃ v, m.task = .write (.literal .string (.str text) line tag) name v) →
        ∃ n, ⟨.global, .word name, n⟩ ∈ shape.references) ∧
    ((∀ other : Binding ω,
        (∀ m, Interpreter.Course env room program start m → m.Agrees env other) →
        Interpreter.run (env.served other) room program start = r) ∧
      ∀ invoke : Nat → Role → String → List Value → Value → Heap → ω → Reply ω,
        (∀ role name, (∃ n, ⟨role.referenceKind, .word name, n⟩ ∈ shape.references) →
          ∀ room, invoke room role name = env.binding.invoke room role name) →
        Interpreter.run (env.served { env.binding with invoke }) room program start = r) ∧
    ∀ fault, r.1 = .error fault → env.Raises world fault ∨
      ∀ detail, ("line", detail) ∈ fault.details →
        detail = .value .null ∨ ∃ n, (∃ node ∈ shape.walk, node.line = n) ∧ detail = .int n := by
  intro shape start r noted
  have hprogram := scripted_of_compile hcompile
  have hnamed : ∀ m, Interpreter.Course env room program start m →
      ∀ role name args, m.task = .named role name args →
        ∃ n, ⟨role.referenceKind, .word name, n⟩ ∈ shape.references := by
    intro m hm role name args htask
    have hwithin := hm.within
    rw [htask] at hwithin
    obtain ⟨args', line, hnode⟩ := hwithin
    exact Program.mem_references_reference hprogram hnode
  refine ⟨?_, fun m hm => ⟨hnamed m hm, ?_⟩, ⟨?_, ?_⟩, ?_⟩
  · obtain ⟨hsame, -, hseen⟩ := Interpreter.run_noted env room (P := (· ∈ Node.nodesOf program))
      (fun _ hnode => hnode) heap world locals memory
    exact ⟨hsame, fun seen hmem => Program.mem_walk hprogram (hseen seen hmem).1⟩
  · intro text line tag name htask
    have hwithin := hm.within
    obtain ⟨⟨line', hnode⟩, hspells⟩ :
        (∃ line', .global (.literal .string (.str text) line tag) line' ∈ Node.nodesOf program) ∧
          Node.Spells (.literal .string (.str text) line tag) name := by
      rcases htask with hread | ⟨v, hwrite⟩
      · rw [hread] at hwithin
        exact hwithin
      · rw [hwrite] at hwithin
        exact hwithin
    rw [hspells text line tag rfl]
    exact Program.mem_references_global hprogram hnode
  · exact fun other => Interpreter.run_served
  · intro invoke hinvoke
    refine Interpreter.run_served fun m hm => ?_
    unfold Moment.Agrees
    split
    · rename_i role name args htask
      have hsame := hinvoke role name (hnamed m hm role name args htask) m.room
      exact congrArg (fun f => f args env.context m.state.heap m.state.world) hsame
    · rfl
    · exact fun _ _ _ => rfl
    · exact fun _ _ _ => rfl
    · exact fun _ _ _ => rfl
    · trivial
  · intro fault hfault
    have hfails := (Program.locating hprogram env world).execAll program false
      (fun _ => areStatements_of_compile hcompile) (fun _ hnode => hnode) room
    obtain ⟨-, hfaults⟩ := hfails (Interpreter.inPhase .running start) .start
    have hr : r = _ := Interpreter.run_of_idle rfl env room program
    rw [hr] at hfault
    obtain ⟨raised, hraised, rfl⟩ := Interpreter.error_of_concluded hfault
    rcases hfaults raised hraised with hkind | ⟨hlooped, -⟩
    · exact Fault.surfaced_isLocated hkind
    · cases hlooped

/-- A script that asks for the time and keeps it as a global. -/
theorem index_covers_run_assigning :
    let line : Line := .number 1
    let key : Node := .literal .string (.str "k") line 8
    let program : Program :=
      [.assign (.global key line) (.reference .placeholder "now" [] line) line]
    let env : Setting Unit Unit := ⟨.still, ⟨⟨9, "9"⟩, ⟨9, "9"⟩⟩, none, .null⟩
    let start : State Unit Unit := ⟨{}, (), .start .empty, ()⟩
    compile "clock" "global.k = $now" = .ok program ∧
    ((∃ m, Interpreter.Course env 10 program start m ∧ m.task = .named .placeholder "now" []) ∧
      ∃ n, ⟨.placeholder, .word "now", n⟩ ∈ (Program.toShape program).references) ∧
    (∃ m, Interpreter.Course env 10 program start m ∧ m.task = .write key "k" .null) ∧
      ∃ n, ⟨.global, .word "k", n⟩ ∈ (Program.toShape program).references := by
  intro line key program env start
  have hcompile : compile "clock" "global.k = $now" = .ok program := by cbv
  obtain ⟨-, hcourse, -⟩ := index_covers_run hcompile env 10 {} () .empty ()
  have hassign : Interpreter.Course env 10 program start
      ⟨.execution (.assign (.global key line) (.reference .placeholder "now" [] line) line), 10,
        ⟨{}, (), ⟨⟨[]⟩, 1, 0, none, .shared, .running⟩, ()⟩⟩ :=
    .head .firstStatement (.single (.statementRule (by decide) rfl))
  have hnow : Interpreter.Course env 10 program start
      ⟨.named .placeholder "now" [], 8, ⟨{}, (), ⟨⟨[]⟩, 3, 1, none, .shared, .running⟩, ()⟩⟩ :=
    ((hassign.tail (.assignedGlobal rfl)).tail (.expressionRule (by decide) rfl (by decide))).tail
      (.named rfl rfl rfl)
  have hwrite : Interpreter.Course env 10 program start
      ⟨.write key "k" .null, 10, ⟨{}, (), ⟨⟨[]⟩, 3, 0, none, .shared, .running⟩, ()⟩⟩ :=
    hassign.tail (.globalWrite rfl rfl)
  exact ⟨hcompile, ⟨⟨_, hnow, rfl⟩, (hcourse _ hnow).1 _ _ _ rfl⟩, ⟨_, hwrite, rfl⟩,
    (hcourse _ hwrite).2 _ _ _ _ (.inr ⟨_, rfl⟩)⟩

end TriggerEngine
