import Turnstile.Text.Basic

/-! A model gives truth values to finitely many names. Its bindings are kept in the byte order
of their names, so a model has one form, whatever order it was built in. Names it does not bind
count as false, except in strict evaluation. -/
namespace Turnstile

/-- Byte order of texts: a text comes before its extensions. -/
def Text.before : Text → Text → Bool
  | _, [] => false
  | [], _ :: _ => true
  | a :: s, b :: t => a.toNat < b.toNat || (a = b && before s t)

namespace Text

theorem before_trans {s t u : Text} (hst : s.before t = true) (htu : t.before u = true) :
    s.before u = true := by
  induction s generalizing t u with
  | nil => cases t <;> cases u <;> simp_all [before]
  | cons a s ih =>
    cases t with
    | nil => simp [before] at hst
    | cons b t =>
      cases u with
      | nil => simp [before] at htu
      | cons c u =>
        simp only [before, Bool.or_eq_true, decide_eq_true_eq, Bool.and_eq_true] at *
        rcases hst with hab | ⟨rfl, hst⟩
        · rcases htu with hbc | ⟨rfl, _⟩
          · exact .inl (Nat.lt_trans hab hbc)
          · exact .inl hab
        · rcases htu with hbc | ⟨rfl, htu⟩
          · exact .inl hbc
          · exact .inr ⟨rfl, ih hst htu⟩

theorem lookup_cons (x name : Text) (value : α) (entries : List (Text × α)) :
    ((name, value) :: entries).lookup x = if x = name then some value else entries.lookup x := by
  by_cases same : x = name
  · simp [same]
  · simp [List.lookup_cons, beq_false_of_ne same, same]

theorem before_self (s : Text) : s.before s = false := by
  induction s with
  | nil => rfl
  | cons a s ih => simp [before, ih]

theorem eq_or_before {s t : Text} (h : s.before t = false) : s = t ∨ t.before s = true := by
  induction s generalizing t with
  | nil => cases t <;> simp_all [before]
  | cons a s ih =>
    cases t with
    | nil => simp [before]
    | cons b t =>
      simp only [before, Bool.or_eq_false_iff, decide_eq_false_iff_not, Nat.not_lt,
        Bool.and_eq_false_iff, Bool.or_eq_true, decide_eq_true_eq, Bool.and_eq_true] at *
      obtain ⟨hle, hne⟩ := h
      by_cases hab : a = b
      · subst hab
        rcases hne with h | h
        · exact absurd rfl h
        · rcases ih h with rfl | h
          · exact .inl rfl
          · exact .inr (.inr ⟨rfl, h⟩)
      · refine .inr (.inl (Nat.lt_of_le_of_ne hle fun he => hab ?_))
        exact UInt8.toNat_inj.mp he.symm

end Text

/-- Bindings in the order of their names, each name at most once. -/
def Ordered (bindings : List (Text × Bool)) : Prop :=
  bindings.Pairwise fun x y => x.1.before y.1 = true

structure Model where
  bindings : List (Text × Bool)
  ordered : Ordered bindings

namespace Model

/-- The bindings with `name` bound to `value`, which replaces an earlier binding. -/
def insert (name : Text) (value : Bool) : List (Text × Bool) → List (Text × Bool)
  | [] => [(name, value)]
  | x :: rest =>
    if name.before x.1 then (name, value) :: x :: rest
    else if x.1.before name then x :: insert name value rest
    else (name, value) :: rest

theorem mem_insert {name : Text} {value : Bool} {bindings : List (Text × Bool)}
    {x : Text × Bool} (h : x ∈ insert name value bindings) :
    x = (name, value) ∨ x ∈ bindings := by
  induction bindings with
  | nil => simpa [insert] using h
  | cons y rest ih =>
    unfold insert at h
    split at h
    · simpa using h
    · split at h
      · rcases List.mem_cons.mp h with rfl | h
        · exact .inr List.mem_cons_self
        · rcases ih h with rfl | h
          · exact .inl rfl
          · exact .inr (List.mem_cons_of_mem _ h)
      · rcases List.mem_cons.mp h with rfl | h
        · exact .inl rfl
        · exact .inr (List.mem_cons_of_mem _ h)

theorem ordered_insert (name : Text) (value : Bool) {bindings : List (Text × Bool)}
    (h : Ordered bindings) : Ordered (insert name value bindings) := by
  induction bindings with
  | nil => simp [insert, Ordered]
  | cons x rest ih =>
    obtain ⟨hx, hrest⟩ := List.pairwise_cons.mp h
    unfold insert
    split
    next hlt =>
      refine List.pairwise_cons.mpr ⟨fun y hy => ?_, h⟩
      rcases List.mem_cons.mp hy with rfl | hy
      · exact hlt
      · exact Text.before_trans hlt (hx y hy)
    next hlt =>
      split
      next hgt =>
        refine List.pairwise_cons.mpr ⟨fun y hy => ?_, ih hrest⟩
        rcases mem_insert hy with rfl | hy
        · exact hgt
        · exact hx y hy
      next hgt =>
        rcases Text.eq_or_before (Bool.eq_false_iff.mpr hlt) with rfl | h
        · exact List.pairwise_cons.mpr ⟨hx, hrest⟩
        · exact absurd h hgt

theorem lookup_insert (name : Text) (value : Bool) (bindings : List (Text × Bool)) (x : Text) :
    (insert name value bindings).lookup x =
      if x = name then some value else bindings.lookup x := by
  induction bindings with
  | nil => exact Text.lookup_cons x name value []
  | cons y rest ih =>
    unfold insert
    split
    next => exact Text.lookup_cons x name value _
    next hlt =>
      split
      next hgt =>
        have apart : y.1 ≠ name := fun same => by simp [same, Text.before_self] at hgt
        rw [Text.lookup_cons, Text.lookup_cons, ih]
        by_cases first : x = y.1 <;> simp [first, apart]
      next hgt =>
        rcases Text.eq_or_before (Bool.eq_false_iff.mpr hlt) with rfl | h
        · rw [Text.lookup_cons, Text.lookup_cons]
          by_cases same : x = y.1 <;> simp [same]
        · exact absurd h hgt

def empty : Model := ⟨[], List.Pairwise.nil⟩

def bind (m : Model) (name : Text) (value : Bool) : Model :=
  ⟨insert name value m.bindings, ordered_insert name value m.ordered⟩

/-- The model of a list of bindings, later ones replacing earlier ones. -/
def ofList (bindings : List (Text × Bool)) : Model :=
  bindings.foldl (fun m x => m.bind x.1 x.2) empty

def get? (m : Model) (name : Text) : Option Bool :=
  m.bindings.lookup name

theorem get?_bind (m : Model) (name : Text) (value : Bool) (x : Text) :
    (m.bind name value).get? x = if x = name then some value else m.get? x :=
  lookup_insert name value m.bindings x

theorem get?_foldl_bind (names : List Text) (value : Text → Bool) (m : Model) (x : Text) :
    ((names.map fun name => (name, value name)).foldl (fun m y => m.bind y.1 y.2) m).get? x =
      if x ∈ names then some (value x) else m.get? x := by
  induction names generalizing m with
  | nil => simp
  | cons name names ih =>
    rw [List.map_cons, List.foldl_cons, ih, get?_bind]
    by_cases same : x = name
    · simp [same]
    · simp [same]

theorem get?_ofList_map (names : List Text) (value : Text → Bool) (x : Text) :
    (ofList (names.map fun name => (name, value name))).get? x =
      if x ∈ names then some (value x) else none :=
  get?_foldl_bind names value empty x

/-- The value of a name. Names that are not bound are false. -/
def value (m : Model) (name : Text) : Bool :=
  (m.get? name).getD false

def letter (b : Bool) : Text :=
  if b then "T" else "F"

def render (m : Model) : Text :=
  Text.join ", " (m.bindings.map fun x => x.1 ++ "=" ++ letter x.2)

end Model

end Turnstile
