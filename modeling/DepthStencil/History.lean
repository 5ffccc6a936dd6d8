import DepthStencil.Access

/-! # Access histories

What has to be known about the past of an aspect to synchronise its next use is small: the last
write, and the earliest stages that have read the aspect since (`History`).

* `History.owed` is what the next change of layout has to wait for.  Reads since the last write
  already waited for that write, so they alone are owed if there are any.
* `History.layoutBarrier` and `History.afterLayout` treat a change of layout, which counts as a
  write that happens before the access it leads to.
* `History.accessBarrier` and `History.record` treat an access that leaves the layout alone. -/

namespace DepthStencil

/-- The last write to an aspect and the earliest stages that read it afterwards. -/
@[ext] structure History where
  write : Access
  reads : Mask
deriving DecidableEq, Repr

namespace History

/-- The history of an aspect that has never been accessed. -/
def empty : History := ⟨.none, 0⟩

instance : Inhabited History := ⟨empty⟩

/-- The history in which `a` was the last write. -/
def ofWrite (a : Access) : History := ⟨a, 0⟩

/-- The history assumed of an aspect that enters tracking at a level. -/
def ofLevel : Level → History
  | .undefined => empty
  | .readOnly => ⟨.none, Access.sampled.stages⟩
  | .writable => ofWrite Access.write.writePart

/-! ### Changes of layout -/

/-- The accesses that a change of layout has to wait for. -/
def owed (h : History) : Access := if h.reads = 0 then h.write else ⟨h.reads, 0⟩

/-- The dependency of a change of layout that leads to `next`. -/
def layoutBarrier (h : History) (next : Access) : Dependency := ⟨h.owed, next⟩

/-- The history after a change of layout that leads to `next`. -/
def afterLayout (next : Access) : History :=
  ⟨next.writePart, if next.isReadOnly then next.stages else 0⟩

/-! ### Accesses in the present layout -/

/-- The least dependency needed before `next` if the layout stays.

* An aspect that was never accessed needs none.
* A read needs one only if it comes earlier than the reads made so far.
* A write after reads waits for the reads to finish.
* All else waits for the last write. -/
def accessBarrier (h : History) (next : Access) : Dependency :=
  if h = empty then .empty
  else if next.isReadOnly then
    match Stage.compare? h.reads next.stages with
    | some .gt => .execution h.reads next.stages
    | some .eq | some .lt => .empty
    | none => ⟨h.write, next⟩
  else if h.reads = 0 then ⟨h.write, next⟩
  else .execution h.reads next.stages

/-- The history after an access that needs no barrier. -/
def record (h : History) (next : Access) : History :=
  if next = .none then h
  else if next.isReadOnly then { h with reads := Stage.earlier h.reads next.stages }
  else ofWrite next.writePart

/-! ### Either kind -/

/-- The dependency needed before `next`, which changes the layout if `moves`. -/
def barrier (h : History) (next : Access) (moves : Bool) : Dependency :=
  if moves then h.layoutBarrier next else h.accessBarrier next

/-- The history after `next`, which changes the layout if `moves`. -/
def advance (h : History) (next : Access) (moves : Bool) : History :=
  if moves then afterLayout next else h.record next

end History

end DepthStencil
