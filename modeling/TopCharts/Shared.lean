/-!
# Shared values

Several handles may refer to one value: a change through one of them is seen through all. A pool
holds the values and says which handle refers to which.

* `Shared.single` : one value with one handle, the handle `0`;
* `Shared.alloc` adds a value with a handle of its own, `Shared.share` a handle to the value of
  another handle;
* `get?`, `modify`, `toList` : the value of a handle, a change of it, the value of every handle.
-/

namespace TopCharts

/-- Values and the handles that refer to them. -/
structure Shared (σ : Type) where
  values : List σ
  /-- The position of the value each handle refers to. -/
  handles : List Nat

namespace Shared

variable {σ : Type}

def single (s : σ) : Shared σ := ⟨[s], [0]⟩

/-- Adds a value and a handle to it. -/
def alloc (p : Shared σ) (s : σ) : Shared σ :=
  ⟨p.values ++ [s], p.handles ++ [p.values.length]⟩

/-- Adds a handle to the value that `handle` refers to. -/
def share (p : Shared σ) (handle : Nat) : Shared σ :=
  ⟨p.values, p.handles ++ (p.handles[handle]?).toList⟩

def get? (p : Shared σ) (handle : Nat) : Option σ := do
  p.values[← p.handles[handle]?]?

def modify (p : Shared σ) (handle : Nat) (f : σ → σ) : Shared σ :=
  match p.handles[handle]? with
  | some position => ⟨p.values.modify position f, p.handles⟩
  | none => p

def toList (p : Shared σ) : List σ :=
  p.handles.filterMap (p.values[·]?)

end Shared

end TopCharts
