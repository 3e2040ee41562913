import RegisterMachine.Registers.Fetch
import RegisterMachine.Template

/-!
# `RegisterMachine.Proofs.Registers.Exact` — registers and the integers they hold

Whatever the cells of a store are, they hold integers, and `exact` is the store
of these integers.  Everything that is ever asked of a store is answered by the
integers alone: a read, a write, the listing in a complaint, a rendered template.

    r                               r.exact
    fetch name = .ok v              fetch name = .ok (toInt v)
    fetch name = .error c           fetch name = .error c
    insert name v                   insert name (toInt v)
-/

namespace RegisterMachine

theorem Entries.lookup_map {V W : Type} (f : V → W) (name : String) (es : List (String × V)) :
    (es.map fun (n, v) => (n, f v)).lookup name = (es.lookup name).map f := by
  induction es with
  | nil => rfl
  | cons e es ih =>
    obtain ⟨n, v⟩ := e
    rw [List.map_cons, lookup_cons_eq, lookup_cons_eq, ih]
    split <;> rfl

variable {V : Type} [Cell V]

namespace Registers

/-- The integers that the registers hold -/
def exact (r : Registers V) : Registers Int :=
  ⟨r.contents, List.pairwise_map.2 r.ascending⟩

@[simp] theorem get?_exact (r : Registers V) (name : String) :
    r.exact.get? name = (r.get? name).map Cell.toInt :=
  Entries.lookup_map Cell.toInt name r.entries

@[simp] theorem exact_insert (r : Registers V) (name : String) (v : V) :
    (r.insert name v).exact = r.exact.insert name (Cell.toInt v) := by
  refine ext_get? fun m => ?_
  rw [get?_exact, get?_insert, get?_insert, get?_exact]
  split <;> rfl

@[simp] theorem contents_exact (r : Registers V) : r.exact.contents = r.contents :=
  List.map_id' _

@[simp] theorem fetch_exact (r : Registers V) (name : String) :
    r.exact.fetch name = (r.fetch name).map Cell.toInt := by
  unfold fetch
  rw [get?_exact, contents_exact]
  cases r.get? name <;> rfl

end Registers

namespace Template

theorem render_exact (r : Registers V) (part : Part) : part.render r.exact = part.render r := by
  cases part with
  | text content => rfl
  | register name =>
    rw [Part.render, Part.render, Registers.fetch_exact]
    cases r.fetch name <;> rfl

/-- A message does not show in which cells the registers are -/
theorem interpolate_exact (template : String) (r : Registers V) :
    interpolate template r.exact = interpolate template r := by
  rw [interpolate, interpolate, funext (render_exact r)]

end Template

end RegisterMachine
