/-
**What calls of the host keep.**

A routine of the host changes the world only through what it asks for.  So a property of worlds that
every answer keeps, and the writing down of calls too, is kept by every call: of a routine, of a
callable and of what is registered under a name.  It is enough that this holds for the questions
that the routines do ask.

Main definitions:

* `Act.Asks` — acts that ask only for some things;
* `Host.IsEmpty` — hosts without objects, routines and code;
* `Host.Answering` — what a host comes to by answering;
* `Seat.Keeps` — properties of worlds that answers keep;
* `Binding.Changes` — how a host changes the world for a run.

Main results:

* `Act.run_keeps` — what answers keep is kept by acts;
* `Seat.Keeps.invoke`, `Seat.Keeps.callValue` — and by calls;
* `Seat.Keeps.consult`, `Seat.Keeps.item` — and by whatever else the host is asked for;
* `Seat.Keeps.changes` — so by all that a host does for a run;
* `Host.answering_serve` — a host does not change its objects and its routines, and it strikes out
  nothing that was written down.
-/

import Mathlib
import TriggerEngine.Host.Binding

set_option autoImplicit false

namespace TriggerEngine

variable {ω : Type}

/-! ### Acts -/

/-- Whether an act asks only for some things, whatever the replies are. -/
def Act.Asks (asked : Request → Prop) : Act → Prop
  | .done _ => True
  | .fail _ => True
  | .ask request next => asked request ∧ ∀ reply, (next reply).Asks asked

theorem Act.asks_anything (act : Act) : act.Asks fun _ => True := by
  induction act with
  | done v => exact trivial
  | fail fault => exact trivial
  | ask request next ih => exact ⟨trivial, ih⟩

theorem Act.run_keeps {asked : Request → Prop} {P : ω → Prop} {serve : Request → Heap → ω → Reply ω}
    (hserve : ∀ request h w, asked request → P w → P (serve request h w).2.2) (act : Act) :
    act.Asks asked → ∀ h w, P w → P (act.run serve h w).2.2 := by
  induction act with
  | done v => exact fun _ _ _ hw => hw
  | fail fault => exact fun _ _ _ hw => hw
  | ask request next ih =>
      intro hasks h w hw
      have hserved := hserve request h w hasks.1 hw
      unfold Act.run
      split <;> rename_i heq <;> rw [heq] at hserved
      · exact hserved
      · exact ih _ (hasks.2 _) _ _ hserved

/-! ### Calls -/

/-- A property of worlds that calls keep: it stays when a call is written down and when a question
is answered, and the routines ask no other questions. -/
structure Seat.Keeps (seat : Seat ω) (serve : Seat.Service ω) (asked : Request → Prop)
    (P : ω → Prop) : Prop where
  record : ∀ {w : ω} (id : Nat) (call : CallRecord), P w →
    P (seat.withHost w ((seat.host w).record id call))
  serve : ∀ {w : ω} (id : Nat) {request : Request} (h : Heap), asked request → P w →
    P (serve id request h w).2.2
  asks : ∀ {w : ω} (id : Nat) (call : Call), P w →
    (((seat.host w).routine id).act call).Asks asked

namespace Seat.Keeps

variable {seat : Seat ω} {serve : Seat.Service ω} {asked : Request → Prop} {P : ω → Prop}
  (K : seat.Keeps serve asked P)

include K

theorem callRoutine (id : Nat) (via : String) (list : Value) (args : List Value) (context : Value)
    (h : Heap) {w : ω} (hw : P w) :
    P (seat.callRoutine serve id via list args context h w).2.2 :=
  Act.run_keeps (fun _ h _ hasked => K.serve id h hasked) _ (K.asks id _ hw) h _ (K.record id _ hw)

theorem callValue (id : Nat) (args : List Value) (h : Heap) {w : ω} (hw : P w) :
    P (seat.callValue serve id args h w).2.2 :=
  K.callRoutine id "fn" _ args .null _ hw

theorem callCallee {room : Nat} (f : Host.Callee) (list : Value) (args : List Value)
    (context : Value) (h : Heap) {w : ω} (hw : P w) :
    P (seat.callCallee serve room f list args context h w).2.2 := by
  unfold Seat.callCallee
  split
  · exact K.callRoutine _ _ _ _ _ _ hw
  · exact K.callValue _ _ _ hw
  · exact hw
  · exact hw
  · exact hw

theorem invoke {room : Nat} (role : Role) (name : String) (args : List Value) (context : Value)
    (h : Heap) {w : ω} (hw : P w) : P (seat.invoke serve room role name args context h w).2.2 := by
  unfold Seat.invoke
  extract_lets r
  split
  · exact hw
  · unfold Seat.callWithin
    split
    · exact hw
    · exact K.callCallee _ _ _ _ _ hw

theorem runCode (inquiry : Inquiry) (h : Heap) {w : ω} (hw : P w) :
    P (seat.runCode serve inquiry h w).2.2 := by
  unfold Seat.runCode
  split
  · exact hw
  · exact K.callValue _ _ _ hw

theorem consult (inquiry : Inquiry) (h : Heap) {w : ω} (hw : P w) :
    P (seat.consult serve inquiry h w).2.2 := by
  have hcode := K.runCode inquiry h hw
  unfold Seat.consult
  split <;> rename_i heq <;> rw [heq] at hcode
  · exact hcode
  · split <;> exact hcode

theorem item (id i : Nat) (h : Heap) {w : ω} (hw : P w) : P (seat.item? serve id i h w).2.2 := by
  have hcode := K.runCode (.item id i) h hw
  unfold Seat.item?
  split <;> rename_i heq <;> rw [heq] at hcode <;> exact hcode

end Seat.Keeps

/-! ### Worlds that change -/

/-- How a world changes when the host does one thing for a run. -/
inductive Binding.Changes (binding : Binding ω) (context : Value) : ω → ω → Prop
  | invoke (room : Nat) (role : Role) (name : String) (args : List Value) (h : Heap) (w : ω) :
      Changes binding context w (binding.invoke room role name args context h w).2.2
  | call (room id : Nat) (args : List Value) (h : Heap) (w : ω) :
      Changes binding context w (binding.call room id args h w).2.2
  | consult (room : Nat) (inquiry : Inquiry) (h : Heap) (w : ω) :
      Changes binding context w (binding.consult room inquiry h w).2.2
  | item (room id i : Nat) (h : Heap) (w : ω) :
      Changes binding context w (binding.item? room id i h w).2.2

theorem Seat.Keeps.changes {seat : Seat ω} {serve : Nat → Seat.Service ω} {asked : Request → Prop}
    {P : ω → Prop} (K : ∀ room, seat.Keeps (serve room) asked P) {context : Value} {w w' : ω}
    (h : (seat.binding serve).Changes context w w') (hw : P w) : P w' := by
  cases h with
  | invoke room role name args h => exact (K room).invoke role name args context h hw
  | call room id args h => exact (K room).callValue id args h hw
  | consult room inquiry h => exact (K room).consult inquiry h hw
  | item room id i h => exact (K room).item id i h hw

/-! ### Hosts -/

namespace Host

/-- Whether a host has neither objects nor routines, and runs nothing when it is asked. -/
structure IsEmpty (host : Host) : Prop where
  objects : host.objects = #[]
  routines : host.routines = #[]
  code : ∀ inquiry, host.code inquiry = none

/-- Whether a host came out of another one by answering what routines ask for: of what is kept
here, nothing has changed. -/
structure Answering (host host' : Host) : Prop where
  objects : host'.objects = host.objects
  routines : host'.routines = host.routines
  code : host'.code = host.code
  calls : host'.calls = host.calls

variable {host host' : Host}

theorem Answering.refl (host : Host) : Answering host host := ⟨rfl, rfl, rfl, rfl⟩

theorem Answering.replied (h : Heap) {result : Except Fault Host}
    (hresult : ∀ host', result = .ok host' → Answering host host') :
    Answering host (Host.replied h host result).2.2 := by
  cases result with
  | ok host' => exact hresult host' rfl
  | error fault => exact .refl host

theorem Answering.writeGlobal {key v : Value} (hwrite : host.writeGlobal key v = .ok host') :
    Answering host host' := by
  unfold Host.writeGlobal at hwrite
  split at hwrite
  · cases hwrite
    exact ⟨rfl, rfl, rfl, rfl⟩
  · split at hwrite
    · cases hwrite
      exact ⟨rfl, rfl, rfl, rfl⟩
    · cases hwrite

theorem Answering.dropGlobal {key : Value} (hdrop : host.dropGlobal key = .ok host') :
    Answering host host' := by
  unfold Host.dropGlobal at hdrop
  split at hdrop
  · cases hdrop
    exact ⟨rfl, rfl, rfl, rfl⟩
  · split at hdrop
    · cases hdrop
      exact ⟨rfl, rfl, rfl, rfl⟩
    · cases hdrop

theorem Answering.wait {seconds : Value} (hwait : host.wait seconds = .ok host') :
    Answering host host' := by
  unfold Host.wait at hwait
  split at hwait
  · cases hwait
  · split at hwait
    · cases hwait
      exact ⟨rfl, rfl, rfl, rfl⟩
    · cases hwait
    · cases hwait

theorem answering_serve (host : Host) (id : Nat) (request : Request) (h : Heap) :
    Answering host (Host.serve id request h host).2.2 := by
  cases request with
  | writeGlobal => exact .replied h fun _ => .writeGlobal
  | dropGlobal => exact .replied h fun _ => .dropGlobal
  | wait => exact .replied h fun _ => .wait
  | push list _ => cases list <;> exact .refl host
  | _ => exact .refl host

theorem keeps_isEmpty : Host.seat.Keeps Host.serve (fun _ => True) IsEmpty where
  record _ _ hempty := ⟨hempty.objects, hempty.routines, hempty.code⟩
  serve id _ h _ hempty :=
    have hserve := answering_serve _ id _ h
    ⟨hserve.objects.trans hempty.objects, hserve.routines.trans hempty.routines,
      fun inquiry => hserve.code ▸ hempty.code inquiry⟩
  asks _ _ _ := Act.asks_anything _

theorem keeps_calls (calls : List CallRecord) :
    Host.seat.Keeps Host.serve (fun _ => True) (fun host => calls <:+ host.calls) where
  record _ call hcalls := hcalls.trans (List.suffix_cons call _)
  serve id _ h _ hcalls := by
    rw [(answering_serve _ id _ h).calls]
    exact hcalls
  asks _ _ _ := Act.asks_anything _

end Host

end TriggerEngine
