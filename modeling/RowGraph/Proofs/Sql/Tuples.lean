import RowGraph.Proofs.Sql.Literals
import RowGraph.Proofs.Sql.Placeholders
import RowGraph.Proofs.Statement.Batch

/-!
How many rows the text of an insertion makes.

The rows are read off the text: each group between parentheses is a row of as many values as the
group has commas at its own depth, and one more.  Parentheses and commas inside a string or inside a
further group do not count.  A text that asks for default values makes one row.

An insertion that writes columns has a row in its text for each row of the batch.  One that writes no
columns asks for default values, and does so once, however many rows were put into the batch.
-/

namespace RowGraph
namespace Sql

/-! ## Reading rows off a text -/

/-- A reader of rows: how many groups are open, whether it is inside a string, and the numbers of
values in the rows that began so far, the last one first. -/
structure TupleReader where
  depth : Nat
  quoted : Bool
  sizes : List Nat

namespace TupleReader

def start : TupleReader := ⟨0, false, []⟩

/-- A doubled quote inside a string leaves the string and enters it again. -/
def step (r : TupleReader) (c : Char) : TupleReader :=
  if c = '\x27' then { r with quoted := !r.quoted }
  else if r.quoted then r
  else if c = '(' then
    { r with depth := r.depth + 1, sizes := if r.depth = 0 then 1 :: r.sizes else r.sizes }
  else if c = ')' then { r with depth := r.depth - 1 }
  else if c = ',' ∧ r.depth = 1 then { r with sizes := r.sizes.modifyHead (· + 1) }
  else r

def read (r : TupleReader) (s : String) : TupleReader :=
  s.toList.foldl step r

theorem read_append (r : TupleReader) (s t : String) : r.read (s ++ t) = (r.read s).read t := by
  rw [read, String.toList_append, List.foldl_append]
  rfl

theorem foldl_quoted (depth : Nat) (sizes : List Nat) (cs : List Char) :
    (quotedChars cs).foldl step ⟨depth, true, sizes⟩ = ⟨depth, true, sizes⟩ := by
  induction cs with
  | nil => rfl
  | cons c rest ih =>
    by_cases hc : c = '\x27'
    · subst hc
      exact ih
    · rw [quotedChars_of_ne hc, List.foldl_cons, step, if_neg hc]
      exact ih

end TupleReader

open TupleReader

/-- The numbers of values in the rows of a text. -/
def tupleSizes (s : String) : List Nat :=
  (start.read s).sizes.reverse

/-- The numbers of values that the source of an insertion gives for the rows that it makes. -/
def rowSizes (source : String) : List Nat :=
  if source = " DEFAULT VALUES" then [0] else tupleSizes source

/-! ## Texts without rows -/

/-- At that depth the text opens and closes nothing and separates nothing. -/
def Silent (depth : Nat) (s : String) : Prop :=
  ∀ sizes, read ⟨depth, false, sizes⟩ s = ⟨depth, false, sizes⟩

/-- The characters that do nothing at any depth. -/
def IsPlain (c : Char) : Prop :=
  c ≠ '\x27' ∧ c ≠ '(' ∧ c ≠ ')' ∧ c ≠ ','

theorem isPlain_of_isWordChar {c : Char} (h : IsWordChar c) : IsPlain c := by
  unfold IsPlain
  refine ⟨?_, ?_, ?_, ?_⟩ <;>
  · rintro rfl
    revert h
    unfold IsWordChar
    decide

namespace Silent

variable {depth : Nat} {s t : String}

theorem empty : Silent depth "" := fun _ => rfl

theorem append (hs : Silent depth s) (ht : Silent depth t) : Silent depth (s ++ t) := by
  intro sizes
  rw [read_append, hs, ht]

theorem of_isPlain (h : ∀ c ∈ s.toList, IsPlain c) : Silent depth s := by
  intro sizes
  rw [TupleReader.read]
  generalize s.toList = cs at h
  induction cs with
  | nil => rfl
  | cons c rest ih =>
    rw [List.forall_mem_cons] at h
    obtain ⟨⟨hquote, hopen, hclose, hcomma⟩, hrest⟩ := h
    rw [List.foldl_cons, step, if_neg hquote, if_neg Bool.false_ne_true, if_neg hopen,
      if_neg hclose, if_neg fun hc => hcomma hc.1, ih hrest]

theorem stringLiteral (s : String) : Silent depth (stringLiteral s) := by
  intro sizes
  rw [TupleReader.read, toList_stringLiteral, List.foldl_cons, List.foldl_append]
  show ['\x27'].foldl step ((quotedChars s.toList).foldl step ⟨depth, true, sizes⟩) = _
  rw [foldl_quoted]
  rfl

/-- Below the values of a row, a comma separates the items of a list. -/
theorem comma : Silent (depth + 2) ", " := fun _ => rfl

/-- A group that is not a row of its own is silent if what stands in it is. -/
theorem group (h : Silent (depth + 2) s) : Silent (depth + 1) ("(" ++ s ++ ")") := by
  intro sizes
  rw [read_append, read_append]
  show (read ⟨depth + 2, false, sizes⟩ s).read ")" = _
  rw [h]
  rfl

end Silent

/-! ## Values -/

variable {format : Format}

theorem silent_literal (flavor : Flavor) (depth : Nat) (v : Scalar) :
    Silent depth (literal flavor v) := by
  by_cases hstring : ∃ s, v = .string s
  · obtain ⟨s, rfl⟩ := hstring
    exact .stringLiteral s
  · exact .of_isPlain fun c hc =>
      isPlain_of_isWordChar (isWordChar_literal flavor (not_exists.mp hstring) c hc)

theorem silent_placeholder (flavor : Flavor) (depth n : Nat) :
    Silent depth (flavor.placeholder n) := by
  have hnumber : Silent depth (toString n) := .of_isPlain fun c hc => by
    rw [Nat.toString_eq_repr, Nat.toList_repr] at hc
    exact isPlain_of_isWordChar
      (isWordChar_of_isDigit (Nat.isDigit_of_mem_toDigits (by decide) (by decide) hc))
  have hmark : ∀ s ∈ ["?", "@p", "$"], Silent depth s := by
    intro s hs
    refine .of_isPlain ?_
    revert s
    simp [IsPlain]
  cases flavor with
  | generic => exact hmark "?" (by simp)
  | mysql => exact hmark "?" (by simp)
  | mssql => exact (hmark "@p" (by simp)).append hnumber
  | postgresql => exact (hmark "$" (by simp)).append hnumber
  | sqlite => exact (hmark "?" (by simp)).append hnumber

theorem silent_filling (depth n : Nat) (v : Scalar) : Silent depth (format.filling n v) := by
  rw [Format.filling]
  cases format.style with
  | inline => exact silent_literal format.flavor depth v
  | placeholders => exact silent_placeholder format.flavor depth n

mutual
/-- A value in a row is read as one value, a list with all its items too. -/
theorem silent_ofValue (depth n : Nat) :
    (v : Value) → Silent (depth + 1) (textFrom format n (ofValue v))
  | .scalar v => by
    rw [textFrom_scalar]
    exact silent_filling (depth + 1) n v
  | .list [] => by
    have htext : textFrom format n (ofValue (.list [])) = "(NULL)" := String.append_empty
    rw [htext]
    exact fun _ => rfl
  | .list (v :: rest) => by
    have htext : textFrom format n (ofValue (.list (v :: rest))) =
        "(" ++ (textFrom format n (ofValue v) ++
          textFrom format (n + (values (ofValue v)).length) (ofRest rest)) ++ ")" := by
      simp only [ofValue, List.cons_append, textFrom, textFrom_append, String.append_empty,
        String.append_assoc]
    rw [htext]
    exact ((silent_ofValue (depth + 1) n v).append (silent_ofRest depth _ rest)).group

theorem silent_ofRest (depth n : Nat) :
    (items : List Value) → Silent (depth + 2) (textFrom format n (ofRest items))
  | [] => .empty
  | v :: rest => by
    rw [ofRest, List.cons_append, textFrom, textFrom_append]
    exact Silent.comma.append ((silent_ofValue (depth + 1) n v).append (silent_ofRest depth _ rest))
end

/-! ## Rows -/

/-- Of values after one another the first belongs to what is counted already. -/
theorem read_values {t : String} {rest : List String} (h : ∀ u ∈ t :: rest, Silent 1 u) (k : Nat)
    (sizes : List Nat) :
    TupleReader.read ⟨1, false, k :: sizes⟩ (", ".intercalate (t :: rest)) =
      ⟨1, false, (k + rest.length) :: sizes⟩ := by
  induction rest generalizing t k with
  | nil =>
    rw [String.intercalate_singleton]
    exact h t List.mem_cons_self _
  | cons u rest ih =>
    rw [List.forall_mem_cons] at h
    have hcomma : TupleReader.read ⟨1, false, k :: sizes⟩ ", " = ⟨1, false, (k + 1) :: sizes⟩ := rfl
    rw [String.intercalate_cons_cons, read_append, read_append, h.1, hcomma, ih h.2,
      List.length_cons, Nat.add_right_comm, Nat.add_assoc]

/-- The text adds a row of that many values. -/
def AddsRow (k : Nat) (s : String) : Prop :=
  ∀ sizes, TupleReader.read ⟨0, false, sizes⟩ s = ⟨0, false, k :: sizes⟩

theorem addsRow_ofTuple {row : List Value} (h : row ≠ []) (n : Nat) :
    AddsRow row.length (textFrom format n (ofTuple row)) := by
  obtain ⟨v, rest, rfl⟩ := List.exists_cons_of_ne_nil h
  intro sizes
  have hsilent : ∀ u ∈ numbered (fun g => (values g).length) (textFrom format) n
      ((v :: rest).map ofValue), Silent 1 u := by
    refine forall_mem_numbered _ (fun g hg n => ?_) n
    obtain ⟨w, -, rfl⟩ := List.mem_map.mp hg
    exact silent_ofValue 0 n w
  rw [List.map_cons, numbered] at hsilent
  have hopen : TupleReader.read ⟨0, false, sizes⟩ "(" = ⟨1, false, 1 :: sizes⟩ := rfl
  have hclose : TupleReader.read ⟨1, false, (rest.length + 1) :: sizes⟩ ")" =
      ⟨0, false, (rest.length + 1) :: sizes⟩ := rfl
  rw [ofTuple, textFrom_append, textFrom, commas, textFrom_separated, List.map_cons, numbered,
    textFrom, textFrom, String.append_empty, read_append, read_append, hopen, read_values hsilent,
    length_numbered, List.length_map, Nat.add_comm 1, hclose]
  rfl

theorem read_rows {k : Nat} {texts : List String} (h : ∀ t ∈ texts, AddsRow k t)
    (sizes : List Nat) :
    TupleReader.read ⟨0, false, sizes⟩ (", ".intercalate texts) =
      ⟨0, false, List.replicate texts.length k ++ sizes⟩ := by
  induction texts generalizing sizes with
  | nil => rfl
  | cons t rest ih =>
    rw [List.forall_mem_cons] at h
    -- The last row is counted first, but all rows have one size.
    have hlength : List.replicate (t :: rest).length k ++ sizes =
        List.replicate rest.length k ++ k :: sizes := by
      rw [List.length_cons, List.replicate_succ', List.append_assoc]
      rfl
    rw [hlength]
    cases rest with
    | nil =>
      rw [String.intercalate_singleton]
      exact h.1 sizes
    | cons u rest =>
      have hcomma : TupleReader.read ⟨0, false, k :: sizes⟩ ", " = ⟨0, false, k :: sizes⟩ := rfl
      rw [String.intercalate_cons_cons, read_append, read_append, h.1, hcomma, ih h.2]

/-- Rows of equally many values are read as what they are. -/
theorem tupleSizes_rows {k : Nat} {rows : List (List Value)} (hk : k ≠ 0)
    (hrows : ∀ row ∈ rows, row.length = k) (n : Nat) :
    tupleSizes (" VALUES " ++ textFrom format n (commas (rows.map ofTuple))) =
      List.replicate rows.length k := by
  have hadds : ∀ t ∈ numbered (fun g => (values g).length) (textFrom format) n
      (rows.map ofTuple), AddsRow k t := by
    refine forall_mem_numbered _ (fun g hg n => ?_) n
    obtain ⟨row, hrow, rfl⟩ := List.mem_map.mp hg
    have hne : row ≠ [] := by
      rintro rfl
      exact hk (hrows [] hrow).symm
    rw [← hrows row hrow]
    exact addsRow_ofTuple hne n
  have hkeyword : start.read " VALUES " = ⟨0, false, []⟩ := rfl
  rw [tupleSizes, read_append, hkeyword, commas, textFrom_separated, read_rows hadds,
    length_numbered, List.length_map, List.append_nil, List.reverse_replicate]

/-! ## Insertions -/

/-- The text of an insertion up to what its rows come from: the table, the columns that are written
and, where the dialect has it there, the key that is asked for. -/
def Format.opening (format : Format) (i : Insert) : String :=
  "INSERT INTO " ++ format.tablePrefix ++ i.target.table ++
    (if i.columns.isEmpty then "" else " (" ++ ", ".intercalate i.columns ++ ")") ++
    (if i.returningKey = true ∧ format.flavor.keyHook? = some .output then
      " OUTPUT INSERTED." ++ i.target.primaryKey else "")

/-- The text of an insertion after what its rows come from. -/
def Format.closing (format : Format) (i : Insert) : String :=
  (if i.returningKey = true ∧ format.flavor.keyHook? = some .returning then
    " RETURNING " ++ i.target.primaryKey else "") ++ ";"

/-- What the rows of an insertion come from. -/
def Format.source (format : Format) (i : Insert) : String :=
  if i.columns.isEmpty then " DEFAULT VALUES"
  else " VALUES " ++ textFrom format 1 (commas (i.rows.map ofTuple))

theorem layout_ofInsert (format : Format) (i : Insert) :
    layout format (ofInsert format.flavor i) =
      format.opening i ++ format.source i ++ format.closing i := by
  have hhook : ∀ hook : KeyHook, (if i.returningKey then format.flavor.keyHook? else none) =
      some hook ↔ i.returningKey = true ∧ format.flavor.keyHook? = some hook := by
    intro hook
    cases i.returningKey <;> simp
  have htext : ∀ (p : Prop) [Decidable p] (n : Nat) (s : String),
      textFrom format n (if p then [.text s] else []) = if p then s else "" := by
    intro p _ n s
    split
    next => exact String.append_empty
    next => rfl
  have hvalues : ∀ (p : Prop) [Decidable p] (s : String),
      values (if p then [.text s] else []) = [] := by
    intro p _ s
    split <;> rfl
  simp only [layout, ofInsert, hhook, Format.opening, Format.source, Format.closing]
  by_cases hcolumns : i.columns.isEmpty = true
  · simp only [hcolumns, if_true, textFrom_append, textFrom, values_append, values_text,
      values_table, values_nil, htext, hvalues, List.append_nil, List.length_nil, Nat.add_zero,
      String.append_empty, String.append_assoc]
  · simp only [hcolumns, if_false, Bool.false_eq_true, textFrom_append, textFrom, values_append,
      values_text, values_table, values_nil, htext, hvalues, List.append_nil, List.length_nil,
      Nat.add_zero, String.append_empty, String.append_assoc]

/-- An insertion makes a row for each row of its batch, or one row where it writes no columns. -/
theorem rowSizes_source (format : Format) {d : Descriptor} {first : Row} {rows : List Row}
    {i : Insert} (hi : i.Batches d first rows) :
    rowSizes (format.source i) =
      if i.columns = [] then [0] else List.replicate i.rows.length i.columns.length := by
  rw [Format.source]
  by_cases hcolumns : i.columns = []
  · rw [if_pos (List.isEmpty_iff.mpr hcolumns), if_pos hcolumns]
    rfl
  · have hsource : " VALUES " ++ textFrom format 1 (commas (i.rows.map ofTuple)) ≠
        " DEFAULT VALUES" := by
      intro h
      -- The keywords differ in their first letter.
      have hchar := congrArg (fun s : String => s.toList[1]?) h
      simp at hchar
    rw [if_neg (mt List.isEmpty_iff.mp hcolumns), if_neg hcolumns, rowSizes, if_neg hsource]
    refine tupleSizes_rows (mt List.length_eq_zero_iff.mp hcolumns) ?_ 1
    intro values hvalues
    rw [hi.rows] at hvalues
    obtain ⟨row, -, rfl⟩ := List.mem_map.mp hvalues
    exact List.length_map _

/-- A batch writes no columns if its key is left to the database and no other column has a field of
its own or a value in the first row. -/
theorem columns_eq_nil_iff {d : Descriptor} {first : Row} {rows : List Row} {i : Insert}
    (hi : i.Batches d first rows) :
    i.columns = [] ↔ ∀ column ∈ d.columns,
      (column.isKey = true ∧ Insert.lacksKey d first = true) ∨
      (column.member = none ∧ first.contains column.name = false) := by
  rw [hi.columns, List.eq_nil_iff_forall_not_mem]
  simp only [Insert.mem_columnsFor, not_exists]
  constructor
  · intro h column hcolumn
    have hout := h column.name column
    by_cases hkey : column.isKey = true ∧ Insert.lacksKey d first = true
    · exact Or.inl hkey
    · simp only [hcolumn, hkey, not_false_eq_true, true_and, not_or] at hout
      exact Or.inr ⟨by simpa using hout.1, by simpa using hout.2⟩
  · rintro h name column ⟨hcolumn, rfl, hkey, hheld⟩
    rcases h column hcolumn with hgenerated | ⟨hmember, hmissing⟩
    · exact hkey hgenerated
    · rw [hmember, hmissing] at hheld
      simp at hheld

/-- The text of an insertion that writes columns makes one row for each row of the batch, with one
value for each column.  Where no columns are written the text makes one row, whatever the number of
rows in the batch. -/
theorem rowSizes_serialize {d : Descriptor} {first : Row} {rest : List Row} {i : Insert}
    (h : rest.foldlM Insert.push (.ofRow d first) = .ok i) {format : Format} {aliases : AliasTable}
    {f : Formatted} (hf : format.serialize (.insert i) aliases = .ok f) :
    i.rows.length = rest.length + 1 ∧
      (i.columns = [] ↔ ∀ column ∈ d.columns,
        (column.isKey = true ∧ Insert.lacksKey d first = true) ∨
        (column.member = none ∧ first.contains column.name = false)) ∧
      ∃ source, f.sql = format.opening i ++ source ++ format.closing i ∧
        rowSizes source =
          (if i.columns = [] then [0] else List.replicate i.rows.length i.columns.length) ∧
        (rowSizes source = List.replicate i.rows.length i.columns.length ↔
          i.columns ≠ [] ∨ rest = []) := by
  have hi := Insert.batches_of_foldlM h
  have hlength : i.rows.length = rest.length + 1 := by
    rw [hi.rows, List.length_map, List.length_cons]
  have hsizes := rowSizes_source format hi
  refine ⟨hlength, columns_eq_nil_iff hi, format.source i, ?_, hsizes, ?_⟩
  · rw [(serialize_eq_ok hf).2]
    exact layout_ofInsert format i
  · rw [hsizes]
    by_cases hcolumns : i.columns = []
    · rw [if_pos hcolumns, hcolumns, hlength, List.length_nil, List.replicate_succ]
      simp
    · rw [if_neg hcolumns]
      exact iff_of_true rfl (Or.inl hcolumns)

/-! ### A row that is not made -/

/-- Guilds have a number and nothing else. -/
def guilds : Catalogue where
  models := [⟨"Guild", "Guilds", "id", [⟨"id", .column .i64 (some "id") none, false⟩]⟩]

def guild : Descriptor :=
  ⟨"Guild", "Guilds", "id", [⟨"id", some "id", .i64, none, true⟩], [], []⟩

/-- Two guilds that are to be founded at once. -/
def twoGuilds : Insert := ⟨guild, [], [[], []], true⟩

def foundedGuilds : Formatted :=
  ⟨"INSERT INTO Guilds DEFAULT VALUES;", [], .empty, some "SELECT last_insert_rowid();"⟩

theorem describes_guild : guilds.Describes guild := ⟨[], by cbv⟩

theorem foldlM_twoGuilds :
    [Row.empty].foldlM Insert.push (.ofRow guild .empty) = .ok twoGuilds := by
  cbv

theorem serialize_twoGuilds :
    Format.serialize ⟨.sqlite, .inline, ""⟩ (.insert twoGuilds) .empty = .ok foundedGuilds := by
  cbv

theorem not_all_rows_inserted :
    ¬∀ c d, Catalogue.Describes c d → ∀ (first : Row) (rest : List Row) (i : Insert),
      rest.foldlM Insert.push (.ofRow d first) = .ok i →
        ∀ (format : Format) aliases f, format.serialize (.insert i) aliases = .ok f →
          ∃ source, f.sql = format.opening i ++ source ++ format.closing i ∧
            rowSizes source = List.replicate i.rows.length i.columns.length := by
  intro h
  obtain ⟨source, hsql, hrows⟩ := h guilds guild describes_guild .empty [.empty] twoGuilds
    foldlM_twoGuilds ⟨.sqlite, .inline, ""⟩ .empty foundedGuilds serialize_twoGuilds
  have hopening : Format.opening ⟨.sqlite, .inline, ""⟩ twoGuilds = "INSERT INTO Guilds" := by cbv
  have hclosing : Format.closing ⟨.sqlite, .inline, ""⟩ twoGuilds = ";" := by cbv
  have htext : foundedGuilds.sql = "INSERT INTO Guilds" ++ " DEFAULT VALUES" ++ ";" := by cbv
  have hsource : " DEFAULT VALUES" = source := by
    rw [hopening, hclosing, htext, String.append_left_inj, String.append_right_inj] at hsql
    exact hsql
  rw [← hsource] at hrows
  exact absurd hrows (by decide)

theorem rowSizes_serialize_twoGuilds :
    [Row.empty].foldlM Insert.push (.ofRow guild .empty) = .ok twoGuilds ∧
      Format.serialize ⟨.sqlite, .inline, ""⟩ (.insert twoGuilds) .empty = .ok foundedGuilds ∧
      ∃ source, foundedGuilds.sql = "INSERT INTO Guilds" ++ source ++ ";" ∧
        rowSizes source = [0] ∧ rowSizes source ≠ List.replicate 2 0 := by
  obtain ⟨-, -, source, hsql, hsizes, hexact⟩ :=
    rowSizes_serialize foldlM_twoGuilds serialize_twoGuilds
  refine ⟨foldlM_twoGuilds, serialize_twoGuilds, source, hsql, hsizes, ?_⟩
  exact fun hall => absurd (hexact.mp hall) (by simp [twoGuilds])

end Sql
end RowGraph
