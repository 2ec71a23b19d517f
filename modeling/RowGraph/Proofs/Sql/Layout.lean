import RowGraph.Sql.Fragment

/-!
Statement texts with gaps.

The fragments of a statement make a template: pieces of text and, between them, a gap for each value.
The two layouts fill the gaps of this one template, one with literals and one with placeholders.  A
layout in literals does not look at the numbers of the gaps, so it is written fragment by fragment.
-/

namespace RowGraph
namespace Sql

/-- Pieces of text with gaps between them: the text before the first gap, and each gap as the value
that belongs into it together with the text up to the next gap. -/
structure Template where
  head : String
  gaps : List (Scalar × String)

namespace Template

def values (t : Template) : List Scalar :=
  t.gaps.map Prod.fst

/-- The text of gaps of which the first is the `n`-th, the `n`-th gap being filled with what `filling`
gives for `n` and the value of the gap. -/
def fillFrom (filling : Nat → Scalar → String) (n : Nat) (gaps : List (Scalar × String)) : String :=
  String.join ((gaps.zipIdx n).map fun (gap, n) => filling n gap.1 ++ gap.2)

/-- The text with every gap filled.  Gaps are counted from one. -/
def fill (t : Template) (filling : Nat → Scalar → String) : String :=
  t.head ++ fillFrom filling 1 t.gaps

/-- The template with a text put in front. -/
def prepend (s : String) (t : Template) : Template :=
  { t with head := s ++ t.head }

def ofFragments (tablePrefix : String) : List Fragment → Template
  | [] => ⟨"", []⟩
  | .text s :: rest => (ofFragments tablePrefix rest).prepend s
  | .table name :: rest => (ofFragments tablePrefix rest).prepend (tablePrefix ++ name)
  | .value v :: rest =>
    let after := ofFragments tablePrefix rest
    ⟨"", (v, after.head) :: after.gaps⟩

theorem fillFrom_cons (filling : Nat → Scalar → String) (n : Nat) (gap : Scalar × String)
    (gaps : List (Scalar × String)) :
    fillFrom filling n (gap :: gaps) =
      filling n gap.1 ++ gap.2 ++ fillFrom filling (n + 1) gaps := by
  rw [fillFrom, List.zipIdx_cons, List.map_cons, String.join_cons]
  rfl

/-- The gaps of a template belong to the values of the fragments. -/
theorem values_ofFragments (tablePrefix : String) (fragments : List Fragment) :
    (ofFragments tablePrefix fragments).values = Sql.values fragments := by
  induction fragments with
  | nil => rfl
  | cons fragment rest ih =>
    cases fragment with
    | text s => exact ih
    | table name => exact ih
    | value v => exact congrArg (v :: ·) ih

end Template

/-! ## The two layouts -/

/-- What a layout puts in the place of its `n`-th value. -/
def Format.filling (format : Format) (n : Nat) (v : Scalar) : String :=
  match format.style with
  | .inline => literal format.flavor v
  | .placeholders => format.flavor.placeholder n

theorem textFrom_eq (format : Format) (n : Nat) (fragments : List Fragment) :
    textFrom format n fragments =
      (Template.ofFragments format.tablePrefix fragments).head ++
        Template.fillFrom format.filling n
          (Template.ofFragments format.tablePrefix fragments).gaps := by
  induction fragments generalizing n with
  | nil => rfl
  | cons fragment rest ih =>
    cases fragment with
    | text s =>
      rw [textFrom, ih, ← String.append_assoc]
      rfl
    | table name =>
      rw [textFrom, ih, ← String.append_assoc]
      rfl
    | value v =>
      have hempty : (Template.ofFragments format.tablePrefix (.value v :: rest)).head = "" := rfl
      rw [textFrom, ih, hempty, String.empty_append, Template.ofFragments, Template.fillFrom_cons,
        String.append_assoc]
      rfl

/-- Every layout fills the template of its fragments. -/
theorem layout_eq_fill (format : Format) (fragments : List Fragment) :
    layout format fragments =
      (Template.ofFragments format.tablePrefix fragments).fill format.filling :=
  textFrom_eq format 1 fragments

/-! ## The layout in literals -/

/-- The characters of a fragment whose value, if it is one, is written as a literal. -/
def Fragment.chars (flavor : Flavor) (tablePrefix : String) : Fragment → List Char
  | .text s => s.toList
  | .table name => tablePrefix.toList ++ name.toList
  | .value v => (literal flavor v).toList

theorem toList_layout_inline (flavor : Flavor) (tablePrefix : String) (fragments : List Fragment) :
    (layout ⟨flavor, .inline, tablePrefix⟩ fragments).toList =
      fragments.flatMap (Fragment.chars flavor tablePrefix) := by
  rw [layout]
  generalize 1 = n
  induction fragments generalizing n with
  | nil => rfl
  | cons fragment rest ih =>
    cases fragment with
    | text s => rw [textFrom, String.toList_append, ih, List.flatMap_cons, Fragment.chars]
    | table name =>
      rw [textFrom, String.toList_append, String.toList_append, ih, List.flatMap_cons,
        Fragment.chars]
    | value v => rw [textFrom, String.toList_append, ih, List.flatMap_cons, Fragment.chars]

/-! ## Values of fragments -/

@[simp] theorem values_nil : values [] = [] := rfl

@[simp] theorem values_text (s : String) (rest : List Fragment) :
    values (.text s :: rest) = values rest := rfl

@[simp] theorem values_table (name : String) (rest : List Fragment) :
    values (.table name :: rest) = values rest := rfl

@[simp] theorem values_value (v : Scalar) (rest : List Fragment) :
    values (.value v :: rest) = v :: values rest := rfl

@[simp] theorem values_append (as bs : List Fragment) :
    values (as ++ bs) = values as ++ values bs :=
  List.filterMap_append

/-- A text between groups of fragments adds no value. -/
@[simp] theorem values_separated (s : String) (groups : List (List Fragment)) :
    values (separated s groups) = groups.flatMap values := by
  fun_induction separated s groups with
  | case1 => rfl
  | case2 g => exact (List.append_nil _).symm
  | case3 g h rest ih =>
    rw [values_append, values_text, ih]
    rfl

@[simp] theorem values_commas (groups : List (List Fragment)) :
    values (commas groups) = groups.flatMap values :=
  values_separated ", " groups

/-! ## Groups of fragments -/

/-- The values of what comes first are counted before those of what follows. -/
theorem textFrom_append (format : Format) (n : Nat) (as bs : List Fragment) :
    textFrom format n (as ++ bs) =
      textFrom format n as ++ textFrom format (n + (values as).length) bs := by
  induction as generalizing n with
  | nil => exact String.empty_append.symm
  | cons fragment rest ih =>
    cases fragment with
    | text s =>
      rw [List.cons_append, textFrom, textFrom, ih, values_text, String.append_assoc]
    | table name =>
      rw [List.cons_append, textFrom, textFrom, ih, values_table, ← String.append_assoc]
    | value v =>
      have hcount : n + (values (.value v :: rest)).length = n + 1 + (values rest).length := by
        rw [values_value, List.length_cons]
        omega
      rw [List.cons_append, textFrom, textFrom, ih, hcount, ← String.append_assoc]

theorem textFrom_scalar (format : Format) (n : Nat) (v : Scalar) :
    textFrom format n (ofValue (.scalar v)) = format.filling n v :=
  String.append_empty

/-- The texts of items one after another, `n` being the number of the first value in them. -/
def numbered {α : Type} (count : α → Nat) (text : Nat → α → String) : Nat → List α → List String
  | _, [] => []
  | n, a :: rest => text n a :: numbered count text (n + count a) rest

theorem length_numbered {α : Type} (count : α → Nat) (text : Nat → α → String) (n : Nat)
    (as : List α) : (numbered count text n as).length = as.length := by
  induction as generalizing n with
  | nil => rfl
  | cons a rest ih => rw [numbered, List.length_cons, List.length_cons, ih]

theorem forall_mem_numbered {α : Type} {P : String → Prop} (count : α → Nat)
    {text : Nat → α → String} {as : List α} (h : ∀ a ∈ as, ∀ n, P (text n a)) (n : Nat) :
    ∀ t ∈ numbered count text n as, P t := by
  induction as generalizing n with
  | nil => exact List.forall_mem_nil _
  | cons a rest ih =>
    rw [List.forall_mem_cons] at h
    exact List.forall_mem_cons.mpr ⟨h.1 n, ih h.2 _⟩

theorem textFrom_separated (format : Format) (n : Nat) (s : String)
    (groups : List (List Fragment)) :
    textFrom format n (separated s groups) =
      s.intercalate (numbered (fun g => (values g).length) (textFrom format) n groups) := by
  fun_induction separated s groups generalizing n with
  | case1 => rw [numbered, String.intercalate_nil, textFrom]
  | case2 g => rw [numbered, numbered, String.intercalate_singleton]
  | case3 g h rest ih =>
    rw [textFrom_append, textFrom, ih, numbered, ← String.append_assoc, numbered]
    exact (String.intercalate_cons_of_ne_nil (List.cons_ne_nil _ _)).symm

theorem textFrom_separated_map {α : Type} {f : α → List Fragment} {count : α → Nat}
    {text : Nat → α → String} {format : Format} (hcount : ∀ a, (values (f a)).length = count a)
    (htext : ∀ n a, textFrom format n (f a) = text n a) (n : Nat) (s : String) (as : List α) :
    textFrom format n (separated s (as.map f)) = s.intercalate (numbered count text n as) := by
  rw [textFrom_separated]
  congr 1
  induction as generalizing n with
  | nil => rfl
  | cons a rest ih => rw [List.map_cons, numbered, numbered, hcount, htext, ih]

end Sql
end RowGraph
