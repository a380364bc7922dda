import Mathlib.Data.List.Perm.Basic
import Turnstile.Binding
import Turnstile.Proofs.Variables

/-! The printed bindings of a model can be told apart, since no name holds a blank. They give
the model back in any order, unless a name holds the sign `=`: such a binding is cut within its
name, and what follows the cut is no truth value, so the bindings are refused. -/
namespace Turnstile

theorem mapM_eq_ok_iff {f : α → Except ε β} {xs : List α} {ys : List β} :
    xs.mapM f = .ok ys ↔ List.Forall₂ (fun x y => f x = .ok y) xs ys := by
  induction xs generalizing ys with
  | nil => simp [pure, Except.pure, eq_comm]
  | cons x xs ih =>
    simp only [List.mapM_cons, bind_eq_ok_iff, ih, List.forall₂_cons_left_iff, pure, Except.pure,
      Except.ok.injEq]
    constructor
    · rintro ⟨y, first, ys, rest, rfl⟩
      exact ⟨y, ys, first, rest, rfl⟩
    · rintro ⟨y, ys, first, rest, rfl⟩
      exact ⟨y, first, ys, rest, rfl⟩

theorem Text.before_asymm {s t : Text} (first : s.before t = true) : ¬t.before s = true := by
  intro second
  simpa [before_self] using before_trans first second

namespace Model

theorem get?_eq_some_iff {m : Model} {x : Text} {b : Bool} :
    m.get? x = some b ↔ (x, b) ∈ m.bindings := by
  obtain ⟨bindings, ordered⟩ := m
  simp only [get?]
  induction bindings with
  | nil => simp
  | cons y rest ih =>
    obtain ⟨name, value⟩ := y
    obtain ⟨later, ordered⟩ := List.pairwise_cons.mp ordered
    rw [Text.lookup_cons, List.mem_cons, ← ih ordered]
    by_cases same : x = name
    · have absent : rest.lookup x ≠ some b := by
        intro found
        simpa [same, Text.before_self] using later _ ((ih ordered).mp found)
      simp [same, same ▸ absent, eq_comm]
    · simp [same]

theorem isSome_get?_ofList {entries : List (Text × Bool)} {x : Text} :
    ((ofList entries).get? x).isSome = true ↔ x ∈ entries.map Prod.fst := by
  suffices general : ∀ m : Model,
      ((entries.foldl (fun m y => m.bind y.1 y.2) m).get? x).isSome = true ↔
        x ∈ entries.map Prod.fst ∨ (m.get? x).isSome = true by
    rw [ofList, general, or_iff_left]
    simp [get?, empty]
  induction entries with
  | nil => simp
  | cons y entries ih =>
    intro m
    rw [List.foldl_cons, ih, get?_bind]
    by_cases same : x = y.1 <;> simp [same]

theorem value_of_mem {m : Model} {x : Text × Bool} (member : x ∈ m.bindings) :
    m.value x.1 = x.2 := by
  rw [value, get?_eq_some_iff.mpr member, Option.getD_some]

/-- Models that bind the same names to the same values are the same. -/
theorem eq_of_get? {m m' : Model} (same : ∀ x, m.get? x = m'.get? x) : m = m' := by
  have distinct (m : Model) : m.bindings.Nodup :=
    m.ordered.imp fun {x y} before same => by simp [same, Text.before_self] at before
  have perm : m.bindings.Perm m'.bindings := by
    rw [List.perm_ext_iff_of_nodup (distinct m) (distinct m')]
    intro (x, b)
    rw [← get?_eq_some_iff, ← get?_eq_some_iff, same]
  have bindings : m.bindings = m'.bindings :=
    perm.eq_of_pairwise (fun _ _ _ _ first second => absurd second (Text.before_asymm first))
      m.ordered m'.ordered
  cases m
  cases m'
  simpa using bindings

/-- A model is made from its bindings in any order. -/
theorem ofList_of_perm {m : Model} {entries : List (Text × Bool)}
    (perm : entries.Perm m.bindings) : ofList entries = m := by
  have values : entries = (entries.map Prod.fst).map fun x => (x, m.value x) := by
    rw [List.map_map, List.map_congr_left, List.map_id]
    intro x member
    exact Prod.ext rfl (value_of_mem (perm.mem_iff.mp member))
  apply eq_of_get?
  intro x
  rw [values, get?_ofList_map]
  split
  · next bound =>
    obtain ⟨y, member, rfl⟩ := List.mem_map.mp bound
    have binding := perm.mem_iff.mp member
    rw [value_of_mem binding, get?_eq_some_iff.mpr binding]
  · next unbound =>
    cases found : m.get? x with
    | none => rfl
    | some b =>
      have member := perm.mem_iff.mpr (get?_eq_some_iff.mp found)
      exact absurd (List.mem_map_of_mem member) unbound

end Model

namespace Binding

def write (x : Text × Bool) : Text :=
  x.1 ++ "=" ++ Model.letter x.2

theorem truth?_letter (b : Bool) : truth? (Model.letter b) = some b := by
  cases b <;> decide +kernel

theorem truth?_eq_none_of_mem {value : Text} (sign : 0x3D ∈ value) : truth? value = none := by
  rw [truth?]
  split
  · rfl
  · next cs decoded =>
    obtain rfl := Text.chars?_eq_some_iff.mp decoded
    have member : '=' ∈ cs.map capital :=
      List.mem_map.mpr ⟨'=', Text.mem_of_mem_encode (by decide) sign, by decide⟩
    have other {word : List Char} (absent : '=' ∉ word) : cs.map capital ≠ word :=
      fun same => absent (same ▸ member)
    simp only [other (by decide : '=' ∉ ['T']), other (by decide : '=' ∉ ['T', 'R', 'U', 'E']),
      other (by decide : '=' ∉ ['1']), other (by decide : '=' ∉ ['F']),
      other (by decide : '=' ∉ ['F', 'A', 'L', 'S', 'E']), other (by decide : '=' ∉ ['0']),
      or_self, if_false]

/-- A binding is cut at its first sign. -/
theorem read_append {name : Text} (absent : 0x3D ∉ name) (filled : name ≠ []) (value : Text) :
    read (name ++ 0x3D :: value) =
      (truth? value).elim (.error (.badValue name value)) fun b => .ok (name, b) := by
  have letters : ∀ b ∈ name, decide (b ≠ 0x3D) = true := by
    intro b member
    simpa using fun same : b = 0x3D => absent (same ▸ member)
  have taken : (name ++ 0x3D :: value).takeWhile (· ≠ 0x3D) = name := by
    rw [List.takeWhile_append_of_pos letters]
    simp
  have left : (name ++ 0x3D :: value).dropWhile (· ≠ 0x3D) = 0x3D :: value := by
    rw [List.dropWhile_append_of_pos letters]
    simp
  obtain ⟨first, rest, rfl⟩ := List.exists_cons_of_ne_nil filled
  simp only [read, taken, left]
  cases truth? value <;> rfl

theorem write_eq (x : Text × Bool) : write x = x.1 ++ 0x3D :: Model.letter x.2 := by
  rw [write, List.append_assoc]
  rfl

theorem read_write {x : Text × Bool} (absent : 0x3D ∉ x.1) (filled : x.1 ≠ []) :
    read (write x) = .ok x := by
  rw [write_eq, read_append absent filled, truth?_letter, Option.elim_some]

/-- A name that holds the sign is cut short, and the rest of it stands in the value. -/
theorem read_write_of_mem {x : Text × Bool} (sign : 0x3D ∈ x.1) :
    ∃ e, read (write x) = .error e := by
  obtain ⟨before, after, split, absent⟩ := List.eq_append_cons_of_mem sign
  have text : write x = before ++ 0x3D :: (after ++ 0x3D :: Model.letter x.2) := by
    simp [write_eq, split]
  rw [text]
  cases before with
  | nil => exact ⟨_, rfl⟩
  | cons b before =>
    rw [read_append absent (List.cons_ne_nil b before), truth?_eq_none_of_mem (by simp)]
    exact ⟨_, rfl⟩

theorem space_not_mem_write {x : Text × Bool} (isName : x.1.IsName) : 0x20 ∉ write x := by
  have absent : 0x20 ∉ x.1 := isName.not_mem (by decide) (.inl (by decide))
  have letter : 0x20 ∉ Model.letter x.2 := by cases x.2 <;> decide
  simp [write_eq, absent, letter]

end Binding

namespace Model

theorem render_eq (m : Model) : m.render = Text.join ", " (m.bindings.map Binding.write) := rfl

/-- The parts of a printed model are its printed bindings. -/
theorem splitPair_render {m : Model} (bound : m.bindings ≠ [])
    (names : ∀ x ∈ m.bindings, x.1.IsName) :
    m.render.splitPair 0x2C 0x20 = m.bindings.map Binding.write := by
  rw [render_eq]
  refine Text.splitPair_join (by decide) (by simpa using bound) ?_
  intro t member inside
  obtain ⟨x, binding, rfl⟩ := List.mem_map.mp member
  exact Binding.space_not_mem_write (names x binding) (inside.subset (by simp))

theorem ofBindings_eq_ok_iff {texts : List Text} {m : Model} : ofBindings texts = .ok m ↔
    ∃ entries, List.Forall₂ (fun t x => Binding.read t = .ok x) texts entries ∧
      ofList entries = m := by
  simp [ofBindings, bind_eq_ok_iff, mapM_eq_ok_iff, pure, Except.pure]

section

variable {m : Model} {texts : List Text} (perm : texts.Perm (m.bindings.map Binding.write))
include perm

/-- Printed bindings are read back in any order. -/
theorem ofBindings_of_perm (names : ∀ x ∈ m.bindings, 0x3D ∉ x.1 ∧ x.1 ≠ []) :
    ofBindings texts = .ok m := by
  have each : List.Forall₂ (fun t x => Binding.read t = .ok x) (m.bindings.map Binding.write)
      m.bindings := by
    rw [List.forall₂_map_left_iff, List.forall₂_same]
    exact fun x member => Binding.read_write (names x member).1 (names x member).2
  obtain ⟨entries, read, order⟩ := List.perm_comp_forall₂ perm each
  exact ofBindings_eq_ok_iff.mpr ⟨entries, read, ofList_of_perm order⟩

/-- A printed binding with the sign in its name is refused, wherever it comes. -/
theorem ofBindings_of_mem {x : Text × Bool} (member : x ∈ m.bindings) (sign : 0x3D ∈ x.1) :
    ∃ e, ofBindings texts = .error e := by
  cases result : ofBindings texts with
  | error e => exact ⟨e, rfl⟩
  | ok m' =>
    obtain ⟨entries, read, _⟩ := ofBindings_eq_ok_iff.mp result
    have printed : Binding.write x ∈ texts := perm.mem_iff.mpr (List.mem_map_of_mem member)
    obtain ⟨y, _, parsed⟩ := exists_related_left read.flip printed
    obtain ⟨e, refused⟩ := Binding.read_write_of_mem sign
    rw [refused] at parsed
    contradiction

end

section

variable {f : Formula} {m : Model} (binds : ∀ x, (m.get? x).isSome = true ↔ x ∈ Formula.vars [f])
include binds

theorem mem_vars_of_mem_bindings {x : Text × Bool} (member : x ∈ m.bindings) :
    x.1 ∈ Formula.vars [f] := by
  rw [← binds, get?_eq_some_iff.mpr member, Option.isSome_some]

theorem exists_mem_bindings {x : Text} (known : x ∈ Formula.vars [f]) :
    ∃ b, (x, b) ∈ m.bindings := by
  obtain ⟨b, found⟩ := Option.isSome_iff_exists.mp ((binds x).mpr known)
  exact ⟨b, get?_eq_some_iff.mp found⟩

theorem bindings_ne_nil : m.bindings ≠ [] := by
  obtain ⟨x, leaf⟩ := List.exists_mem_of_ne_nil _ f.leaves_ne_nil
  obtain ⟨b, binding⟩ := exists_mem_bindings binds
    (Formula.mem_vars.mpr ⟨f, List.mem_singleton_self f, leaf⟩)
  exact List.ne_nil_of_mem binding

end

/-- A model that binds the variables of a formula that was read is printed as bindings that are
read back, in any order, exactly if no variable holds the sign `=`. Otherwise they are refused.
What is read back is the model itself, so strict evaluation gives the value of the formula. -/
theorem ofBindings_reads_back_iff (s : Text) (f : Formula) (m : Model) (texts : List Text)
    (read : Formula.parse s = .ok f)
    (binds : ∀ x, (m.get? x).isSome = true ↔ x ∈ Formula.vars [f])
    (order : texts.Perm (m.render.splitPair 0x2C 0x20)) :
    (ofBindings texts = .ok m ↔ ∀ x ∈ Formula.vars [f], 0x3D ∉ x) ∧
    ((∃ x ∈ Formula.vars [f], 0x3D ∈ x) → ∃ e, ofBindings texts = .error e) ∧
    ∀ m', ofBindings texts = .ok m' → m' = m ∧ f.evalStrict m' = .ok (f.eval m.value) := by
  have isName {x : Text × Bool} (member : x ∈ m.bindings) : x.1.IsName := by
    obtain ⟨g, single, leaf⟩ := Formula.mem_vars.mp (mem_vars_of_mem_bindings binds member)
    obtain rfl := List.mem_singleton.mp single
    exact Formula.named_of_parse read _ leaf
  rw [splitPair_render (bindings_ne_nil binds) fun x => isName] at order
  have accepted (signless : ∀ x ∈ Formula.vars [f], 0x3D ∉ x) : ofBindings texts = .ok m :=
    ofBindings_of_perm order fun x member =>
      ⟨signless x.1 (mem_vars_of_mem_bindings binds member), (isName member).ne_nil⟩
  have refused {x : Text} (known : x ∈ Formula.vars [f]) (sign : 0x3D ∈ x) :
      ∃ e, ofBindings texts = .error e := by
    obtain ⟨b, binding⟩ := exists_mem_bindings binds known
    exact ofBindings_of_mem order binding sign
  have signless {m' : Model} (result : ofBindings texts = .ok m') :
      ∀ x ∈ Formula.vars [f], 0x3D ∉ x := by
    intro x known sign
    obtain ⟨e, error⟩ := refused known sign
    simp [result] at error
  refine ⟨⟨signless, accepted⟩, fun ⟨x, known, sign⟩ => refused known sign, ?_⟩
  intro m' result
  obtain rfl : m' = m := Except.ok.inj (result.symm.trans (accepted (signless result)))
  exact ⟨rfl, Formula.evalStrict_eq_ok_iff.mpr ⟨fun x => (binds x).mpr, rfl⟩⟩

/-- Names may hold commas, and the bindings may come in another order than they were printed in. -/
theorem ofBindings_reads_back_iff_of_comma :
    let f : Formula := .and (.var "a,b") (.var "P")
    let m := ofList [("a,b", true), ("P", false)]
    Formula.parse "a,b & P" = .ok f ∧ m.render = Text.ofString "P=F, a,b=T" ∧
    ofBindings ["a,b=T", "P=F"] = .ok m := by
  intro f m
  have read : Formula.parse "a,b & P" = .ok f := by decide +kernel
  have binds (x : Text) : (m.get? x).isSome = true ↔ x ∈ Formula.vars [f] := by
    have names : Formula.vars [f] = ["a,b", "P"] := by decide
    rw [isSome_get?_ofList, names]
    rfl
  have order : [Text.ofString "a,b=T", Text.ofString "P=F"].Perm
      (m.render.splitPair 0x2C 0x20) :=
    List.Perm.swap _ _ []
  have signless : ∀ x ∈ Formula.vars [f], 0x3D ∉ x := by decide
  exact ⟨read, by decide, (ofBindings_reads_back_iff _ _ _ _ read binds order).1.mpr signless⟩

/-- The name `a=b` can be read in a formula, but its printed binding is cut within the name. -/
theorem ofBindings_refuses_name_with_sign :
    Formula.parse "a=b" = .ok (.var "a=b") ∧
    (∀ x, ((ofList [("a=b", true)]).get? x).isSome = true ↔ x ∈ Formula.vars [.var "a=b"]) ∧
    (ofList [("a=b", true)]).render.splitPair 0x2C 0x20 = [Text.ofString "a=b=T"] ∧
    ofBindings ["a=b=T"] = .error (.badValue "a" "b=T") := by
  have cut : Binding.read "a=b=T" = .error (.badValue "a" "b=T") := by decide +kernel
  refine ⟨by decide +kernel, fun x => ?_, by decide, ?_⟩
  · rw [isSome_get?_ofList]
    rfl
  · simp [ofBindings, cut]

end Model

end Turnstile
