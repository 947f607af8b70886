import Mathlib.Data.List.MinMax
import Mathlib.Data.List.Sort
import Mathlib.Data.Int.Order.Basic
import Mathlib.Data.Prod.Lex
import Skyscale.Lib.FinMap

/-!
# A relational store, one statement at a time

`Schema` lists tables, their rows and primary keys, `Database` is one content of
them, and `Statement` is a single SQL statement.  `Exec` says what a statement may
answer and what it does: selections may break ties in any way, listings without an
order may come in any order, and every statement may fail, leaving the database
unchanged.

`Database.eval` is one deterministic choice among these (`exec_eval`), so that
concrete histories can be computed.
-/

namespace Skyscale
namespace Lib

/-- Tables with their rows.  `serial` is the number the database assigns to an
inserted row, for tables that have one. -/
structure Schema where
  Table : Type
  Key : Table → Type
  Row : Table → Type
  key : (t : Table) → Row t → Key t
  serial : (t : Table) → Row t → Nat
  tableEq : DecidableEq Table
  keyEq : (t : Table) → DecidableEq (Key t)

instance (S : Schema) : DecidableEq S.Table := S.tableEq

instance (S : Schema) (t : S.Table) : DecidableEq (S.Key t) := S.keyEq t

/-- A content of the tables: every row is stored under its primary key. -/
structure Database (S : Schema) where
  table : (t : S.Table) → FinMap (S.Key t) (S.Row t)
  keyed : ∀ t k row, (table t).get k = some row → S.key t row = k

/-- Why a statement failed. -/
inductive Failure
  | notFound
  | other (text : String)
deriving DecidableEq

/-- The text of a failure. -/
def Failure.text : Failure → String
  | .notFound => "record not found"
  | .other text => text

/-- A single statement.  `rank` is the sort key of an `ORDER BY`; updates never
change primary keys. -/
inductive Statement (S : Schema) : Type
  | first (t : S.Table) (where_ : S.Row t → Bool) (rank : S.Row t → Int × Int)
  | find (t : S.Table) (where_ : S.Row t → Bool) (rank : S.Row t → Int × Int)
      (limit : Option Nat)
  | count (t : S.Table) (where_ : S.Row t → Bool)
  | save (t : S.Table) (row : S.Row t)
  | insert (t : S.Table) (row : Nat → S.Row t)
      (onConflict : Option {merge : S.Row t → S.Row t // ∀ r, S.key t (merge r) = S.key t r})
  | update (t : S.Table) (where_ : S.Row t → Bool) (set : S.Row t → S.Row t)
      (key_set : ∀ r, S.key t (set r) = S.key t r)
  | delete (t : S.Table) (where_ : S.Row t → Bool)

/-- What a statement answers. -/
def Statement.Reply {S : Schema} : Statement S → Type
  | first t _ _ => Except Failure (S.Row t)
  | find t _ _ _ => Except Failure (List (S.Row t))
  | count _ _ => Except Failure Nat
  | save _ _ => Except Failure Unit
  | insert _ _ _ => Except Failure Unit
  | update _ _ _ _ => Except Failure Unit
  | delete _ _ => Except Failure Unit

/-- The table a statement writes, if it writes one. -/
def Statement.target {S : Schema} : Statement S → Option S.Table
  | first _ _ _ => none
  | find _ _ _ _ => none
  | count _ _ => none
  | save t _ => some t
  | insert t _ _ => some t
  | update t _ _ _ => some t
  | delete t _ => some t

namespace Database

variable {S : Schema}

/-- The row with a primary key. -/
def row (db : Database S) (t : S.Table) (k : S.Key t) : Option (S.Row t) := (db.table t).get k

/-- The rows of a table. -/
def rows (db : Database S) (t : S.Table) : List (S.Row t) := (db.table t).values

/-- The rows a condition selects. -/
def matching (db : Database S) (t : S.Table) (where_ : S.Row t → Bool) : List (S.Row t) :=
  (db.rows t).filter where_

/-- A database without rows. -/
def empty : Database S := ⟨fun _ => ∅, fun _ _ _ h => by cases h⟩

/-- Replace one table. -/
def withTable (db : Database S) (t : S.Table) (rows : FinMap (S.Key t) (S.Row t))
    (h : ∀ k row, rows.get k = some row → S.key t row = k) : Database S where
  table := Function.update db.table t rows
  keyed := by
    intro t' k row hrow
    by_cases ht : t' = t
    · subst ht
      rw [Function.update_self] at hrow
      exact h k row hrow
    · rw [Function.update_of_ne ht] at hrow
      exact db.keyed t' k row hrow

/-- Store a row under its primary key. -/
def save (db : Database S) (t : S.Table) (r : S.Row t) : Database S :=
  db.withTable t ((db.table t).set (S.key t r) r) <| by
    intro k row hrow
    obtain ⟨hk, rfl⟩ | ⟨_, hrow⟩ := FinMap.get_set_cases hrow
    · exact hk.symm
    · exact db.keyed t k row hrow

/-- Rewrite the selected rows. -/
def rewrite (db : Database S) (t : S.Table) (where_ : S.Row t → Bool)
    (set : S.Row t → S.Row t) (key_set : ∀ r, S.key t (set r) = S.key t r) : Database S :=
  db.withTable t ((db.table t).mapVal fun _ r => if where_ r then set r else r) <| by
    intro k row hrow
    rw [FinMap.get_mapVal] at hrow
    obtain ⟨r, hr, rfl⟩ := Option.map_eq_some_iff.mp hrow
    have hkey := db.keyed t k r hr
    split
    · rw [key_set, hkey]
    · exact hkey

/-- Delete the selected rows. -/
def remove (db : Database S) (t : S.Table) (where_ : S.Row t → Bool) : Database S :=
  db.withTable t ((db.table t).keep fun r => !where_ r) <| by
    intro k row hrow
    rw [FinMap.get_keep, Option.filter_eq_some_iff] at hrow
    exact db.keyed t k row hrow.1

/-- The order of `ORDER BY` with two columns. -/
def Precedes (a b : Int × Int) : Prop := a.1 < b.1 ∨ a.1 = b.1 ∧ a.2 ≤ b.2

instance : DecidableRel Precedes := fun a b =>
  inferInstanceAs (Decidable (a.1 < b.1 ∨ a.1 = b.1 ∧ a.2 ≤ b.2))

theorem Precedes.trans {a b c : Int × Int} (h1 : Precedes a b) (h2 : Precedes b c) :
    Precedes a c := by
  unfold Precedes at *
  omega

theorem precedes_total (a b : Int × Int) : Precedes a b ∨ Precedes b a := by
  unfold Precedes
  omega

/-- A possible answer to a selection of one row. -/
def Selects (db : Database S) (t : S.Table) (where_ : S.Row t → Bool)
    (rank : S.Row t → Int × Int) (r : S.Row t) : Prop :=
  r ∈ db.matching t where_ ∧ ∀ other ∈ db.matching t where_, Precedes (rank r) (rank other)

/-- A possible answer to a selection of rows. -/
def Lists (db : Database S) (t : S.Table) (where_ : S.Row t → Bool)
    (rank : S.Row t → Int × Int) (limit : Option Nat) (rs : List (S.Row t)) : Prop :=
  ∃ sorted : List (S.Row t), sorted.Perm (db.matching t where_) ∧
    sorted.Pairwise (fun a b => Precedes (rank a) (rank b)) ∧
    rs = limit.elim sorted sorted.take

/-- The numbers the database may assign to a new row. -/
def Unassigned (db : Database S) (t : S.Table) (n : Nat) : Prop :=
  n ≠ 0 ∧ ∀ r ∈ db.rows t, S.serial t r ≠ n

/-- What a statement may answer, and the database it leaves. -/
def Exec (db : Database S) : (q : Statement S) → q.Reply → Database S → Prop
  | .first t p rank, .ok r, db' => db' = db ∧ db.Selects t p rank r
  | .first t p _, .error .notFound, db' => db' = db ∧ db.matching t p = []
  | .first _ _ _, .error (.other _), db' => db' = db
  | .find t p rank limit, .ok rs, db' => db' = db ∧ db.Lists t p rank limit rs
  | .find _ _ _ _, .error _, db' => db' = db
  | .count t p, .ok n, db' => db' = db ∧ n = (db.matching t p).length
  | .count _ _, .error _, db' => db' = db
  | .save t r, .ok _, db' => db' = db.save t r
  | .save _ _, .error _, db' => db' = db
  | .insert t r onConflict, .ok _, db' => ∃ n, db.Unassigned t n ∧
      match db.row t (S.key t (r n)), onConflict with
      | none, _ => db' = db.save t (r n)
      | some old, some merge => db' = db.save t (merge.1 old)
      | some _, none => False
  | .insert _ _ _, .error _, db' => db' = db
  | .update t p set key_set, .ok _, db' => db' = db.rewrite t p set key_set
  | .update _ _ _ _, .error _, db' => db' = db
  | .delete t p, .ok _, db' => db' = db.remove t p
  | .delete _ _, .error _, db' => db' = db

def nextSerial (db : Database S) (t : S.Table) : Nat :=
  ((db.rows t).map (S.serial t)).foldr max 0 + 1

def sorted (db : Database S) (t : S.Table) (where_ : S.Row t → Bool)
    (rank : S.Row t → Int × Int) : List (S.Row t) :=
  (db.matching t where_).insertionSort fun a b => Precedes (rank a) (rank b)

def eval (db : Database S) : (q : Statement S) → q.Reply × Database S
  | .first t p rank =>
    match db.sorted t p rank with
    | r :: _ => (.ok r, db)
    | [] => (.error .notFound, db)
  | .find t p rank limit =>
    let sorted := db.sorted t p rank
    (.ok (limit.elim sorted sorted.take), db)
  | .count t p => (.ok (db.matching t p).length, db)
  | .save t r => (.ok (), db.save t r)
  | .insert t r onConflict =>
    let r := r (db.nextSerial t)
    match db.row t (S.key t r), onConflict with
    | none, _ => (.ok (), db.save t r)
    | some old, some merge => (.ok (), db.save t (merge.1 old))
    | some _, none => (.error (.other "UNIQUE constraint failed"), db)
  | .update t p set key_set => (.ok (), db.rewrite t p set key_set)
  | .delete t p => (.ok (), db.remove t p)

/-! ## Lookups -/

section Lookups

variable (db : Database S) {t t' : S.Table}

theorem row_empty_ne (k : S.Key t) (r : S.Row t) : (empty : Database S).row t k ≠ some r :=
  nofun

theorem row_save (r : S.Row t) (k : S.Key t) :
    (db.save t r).row t k = if k = S.key t r then some r else db.row t k := by
  show (Function.update db.table t _ t).get k = _
  rw [Function.update_self, FinMap.get_set]
  rfl

@[simp]
theorem row_save_self (r : S.Row t) : (db.save t r).row t (S.key t r) = some r := by
  rw [row_save, if_pos rfl]

theorem table_save_of_ne (r : S.Row t) (h : t' ≠ t) : (db.save t r).table t' = db.table t' := by
  show Function.update db.table t _ t' = _
  rw [Function.update_of_ne h]

theorem row_save_of_ne (r : S.Row t) (k : S.Key t') (h : t' ≠ t) :
    (db.save t r).row t' k = db.row t' k := by
  rw [row, db.table_save_of_ne r h, row]

theorem row_rewrite (p : S.Row t → Bool) (set : S.Row t → S.Row t)
    (key_set : ∀ r, S.key t (set r) = S.key t r) (k : S.Key t) :
    (db.rewrite t p set key_set).row t k =
      (db.row t k).map fun r => if p r then set r else r := by
  show (Function.update db.table t _ t).get k = _
  rw [Function.update_self, FinMap.get_mapVal]
  rfl

variable {p : S.Row t → Bool} {k : S.Key t} {r : S.Row t} {rank : S.Row t → Int × Int}
  {rs : List (S.Row t)} {db' : Database S} {f : S.Row t → S.Row t}

theorem row_rewrite_key (hp : ∀ r, p r = true ↔ S.key t r = k) (set : S.Row t → S.Row t)
    (key_set : ∀ r, S.key t (set r) = S.key t r) (k' : S.Key t) :
    (db.rewrite t p set key_set).row t k' =
      if k' = k then (db.row t k').map set else db.row t k' := by
  rw [row_rewrite]
  cases hrow : db.row t k' with
  | none => exact (ite_self _).symm
  | some r =>
    have hkey : S.key t r = k' := db.keyed t k' r hrow
    by_cases hk : k' = k
    · rw [if_pos hk, Option.map_some, if_pos ((hp r).mpr (hkey.trans hk)), Option.map_some]
    · rw [if_neg hk, Option.map_some, if_neg fun hr => hk (hkey.symm.trans ((hp r).mp hr))]

theorem row_remove (p : S.Row t → Bool) (k : S.Key t) :
    (db.remove t p).row t k = (db.row t k).filter fun r => !p r := by
  show (Function.update db.table t _ t).get k = _
  rw [Function.update_self, FinMap.get_keep]
  rfl

variable {db}

theorem mem_rows_iff : r ∈ db.rows t ↔ db.row t (S.key t r) = some r := by
  rw [rows, FinMap.mem_values_iff]
  constructor
  · rintro ⟨k, hk⟩
    obtain rfl := db.keyed t k r hk
    exact hk
  · exact fun hk => ⟨_, hk⟩

theorem mem_matching_iff :
    r ∈ db.matching t p ↔ db.row t (S.key t r) = some r ∧ p r = true := by
  rw [matching, List.mem_filter, mem_rows_iff]

theorem nodup_keys_rows (db : Database S) (t : S.Table) : ((db.rows t).map (S.key t)).Nodup := by
  rw [rows, FinMap.map_values (db.keyed t)]
  exact FinMap.keys_nodup _

theorem rows_save_of_none (h : db.row t (S.key t r) = none) :
    (db.save t r).rows t = r :: db.rows t := by
  show FinMap.values (Function.update db.table t _ t) = _
  rw [Function.update_self, FinMap.values_set, FinMap.values_del_of_none h]
  rfl

theorem rows_save_of_some {old : S.Row t} (h : db.row t (S.key t r) = some old) :
    ∃ rest, (db.rows t).Perm (old :: rest) ∧ (db.save t r).rows t = r :: rest := by
  refine ⟨((db.table t).del (S.key t r)).values, FinMap.values_perm_del h, ?_⟩
  show FinMap.values (Function.update db.table t _ t) = _
  rw [Function.update_self, FinMap.values_set]

theorem length_matching_le {q : S.Row t → Bool}
    (h : ∀ r, db.row t (S.key t r) = some r → p r = true → q r = true) :
    (db.matching t p).length ≤ (db.matching t q).length := by
  rw [matching, matching, ← List.countP_eq_length_filter, ← List.countP_eq_length_filter]
  exact List.countP_mono_left fun r hr => h r (mem_rows_iff.mp hr)

theorem matching_save_of_none (h : db.row t (S.key t r) = none) :
    (db.save t r).matching t p = if p r then r :: db.matching t p else db.matching t p := by
  rw [matching, rows_save_of_none h, List.filter_cons, matching]

/-- Replacing a row by one that is selected only if the old one was does not make a
selection longer. -/
theorem length_matching_save_le {old : S.Row t} (h : db.row t (S.key t r) = some old)
    (hp : p r = true → p old = true) :
    ((db.save t r).matching t p).length ≤ (db.matching t p).length := by
  obtain ⟨rest, hperm, hsave⟩ := rows_save_of_some h
  rw [matching, matching, hsave, (hperm.filter p).length_eq, List.filter_cons, List.filter_cons]
  by_cases hr : p r = true
  · rw [if_pos hr, if_pos (hp hr)]
    exact le_rfl
  · rw [if_neg hr]
    split
    · exact Nat.le_succ _
    · exact le_rfl

/-- Replacing a row by one that is selected exactly if the old one was does not change the
length of a selection. -/
theorem length_matching_save_of_some {old : S.Row t} (h : db.row t (S.key t r) = some old)
    (hp : p r = p old) :
    ((db.save t r).matching t p).length = (db.matching t p).length := by
  obtain ⟨rest, hperm, hsave⟩ := rows_save_of_some h
  rw [matching, matching, hsave, (hperm.filter p).length_eq, List.filter_cons, List.filter_cons, hp]
  by_cases hold : p old = true
  · rw [if_pos hold, if_pos hold, List.length_cons, List.length_cons]
  · rw [if_neg hold, if_neg hold]

theorem Lists.length_eq (h : db.Lists t p rank none rs) : rs.length = (db.matching t p).length := by
  obtain ⟨sorted, hperm, -, rfl⟩ := h
  exact hperm.length_eq

theorem Lists.nodup_keys (h : db.Lists t p rank none rs) : (rs.map (S.key t)).Nodup := by
  obtain ⟨sorted, hperm, -, rfl⟩ := h
  refine (hperm.map (S.key t)).nodup_iff.mpr ?_
  exact (db.nodup_keys_rows t).sublist (List.filter_sublist.map (S.key t))

theorem Selects.row_eq (h : db.Selects t p rank r) : db.row t (S.key t r) = some r ∧ p r = true :=
  mem_matching_iff.mp h.1

theorem Lists.row_eq {limit : Option Nat} (h : db.Lists t p rank limit rs) (hr : r ∈ rs) :
    db.row t (S.key t r) = some r ∧ p r = true := by
  obtain ⟨sorted, hperm, -, rfl⟩ := h
  refine mem_matching_iff.mp (hperm.mem_iff.mp ?_)
  cases limit with
  | none => exact hr
  | some n => exact List.mem_of_mem_take hr

/-- A statement only changes the table it writes. -/
theorem Exec.table_of_target_ne {q : Statement S} {ans : q.Reply} (h : db.Exec q ans db')
    (ht : q.target ≠ some t) : db'.table t = db.table t := by
  have hunchanged : db' = db → db'.table t = db.table t := fun heq => by rw [heq]
  have hother : ∀ {t' : S.Table} {rows : FinMap (S.Key t') (S.Row t')}, some t' ≠ some t →
      Function.update db.table t' rows t = db.table t :=
    fun hsome => Function.update_of_ne (fun heq => hsome (congrArg some heq.symm)) _ _
  cases q with
  | first t' p rank =>
    rcases ans with (_ | text) | r
    · exact hunchanged h.1
    · exact hunchanged h
    · exact hunchanged h.1
  | find t' p rank limit =>
    rcases ans with e | rs
    · exact hunchanged h
    · exact hunchanged h.1
  | count t' p =>
    rcases ans with e | n
    · exact hunchanged h
    · exact hunchanged h.1
  | save t' r =>
    rcases ans with e | _
    · exact hunchanged h
    · rw [show db' = db.save t' r from h]
      exact hother ht
  | insert t' r onConflict =>
    rcases ans with e | _
    · exact hunchanged h
    · obtain ⟨n, -, hdb'⟩ := h
      split at hdb'
      · rw [hdb']
        exact hother ht
      · rw [hdb']
        exact hother ht
      · exact hdb'.elim
  | update t' p set key_set =>
    rcases ans with e | _
    · exact hunchanged h
    · rw [show db' = db.rewrite t' p set key_set from h]
      exact hother ht
  | delete t' p =>
    rcases ans with e | _
    · exact hunchanged h
    · rw [show db' = db.remove t' p from h]
      exact hother ht

theorem row_congr (h : db'.table t = db.table t) (k : S.Key t) :
    db'.row t k = db.row t k := by
  rw [row, row, h]

theorem matching_congr (h : db'.table t = db.table t) (p : S.Row t → Bool) :
    db'.matching t p = db.matching t p := by
  rw [matching, matching, rows, rows, h]

theorem Exec.row_of_target_ne {q : Statement S} {ans : q.Reply} (h : db.Exec q ans db')
    (ht : q.target ≠ some t) (k : S.Key t) :
    db'.row t k = db.row t k :=
  row_congr (h.table_of_target_ne ht) k

theorem Exec.row_of_save {ans : (Statement.save t r : Statement S).Reply}
    (h : db.Exec (.save t r) ans db') (k : S.Key t) :
    db'.row t k = db.row t k ∨ k = S.key t r ∧ db'.row t k = some r := by
  rcases ans with e | _
  · left
    rw [show db' = db from h]
  · rw [show db' = db.save t r from h, row_save]
    by_cases hk : k = S.key t r
    · exact .inr ⟨hk, if_pos hk⟩
    · exact .inl (if_neg hk)

/-- Of the table, at most the row with the key has changed, and it was rewritten by
the function. -/
def Touches (db db' : Database S) (t : S.Table) (k : S.Key t) (f : S.Row t → S.Row t) : Prop :=
  ∀ k', db'.row t k' = db.row t k' ∨
    k' = k ∧ ∃ r, db.row t k' = some r ∧ db'.row t k' = some (f r)

theorem Touches.of_table_eq (h : db'.table t = db.table t) (k : S.Key t) (f : S.Row t → S.Row t) :
    db.Touches db' t k f :=
  fun k' => .inl (row_congr h k')

theorem Touches.save (hrow : db.row t k = some r) (hkey : S.key t (f r) = k) :
    db.Touches (db.save t (f r)) t k f := by
  intro k'
  rw [row_save]
  by_cases hk : k' = S.key t (f r)
  · rw [if_pos hk]
    obtain rfl : k' = k := hk.trans hkey
    exact .inr ⟨rfl, r, hrow, rfl⟩
  · rw [if_neg hk]
    exact .inl rfl

theorem Touches.row_none {k' : S.Key t} (h : db.Touches db' t k f) (hnone : db.row t k' = none) :
    db'.row t k' = none := by
  rcases h k' with hsame | ⟨-, r, hr, -⟩
  · rw [hsame, hnone]
  · rw [hnone] at hr
    cases hr

theorem Touches.congr {db0 db1 : Database S} (h : db.Touches db' t k f)
    (h0 : db.table t = db0.table t) (h1 : db1.table t = db'.table t) :
    db0.Touches db1 t k f := by
  intro k'
  rw [← row_congr h0, row_congr h1]
  exact h k'

/-- Only the listed tables may have changed. -/
def Writes (db db' : Database S) (ts : List S.Table) : Prop :=
  ∀ t, t ∉ ts → db'.table t = db.table t

theorem Writes.refl (db : Database S) (ts : List S.Table) : db.Writes db ts := fun _ _ => rfl

theorem Writes.save (db : Database S) (r : S.Row t) {ts : List S.Table} (ht : t ∈ ts) :
    db.Writes (db.save t r) ts :=
  fun _ hnot => db.table_save_of_ne r fun heq => hnot (heq ▸ ht)

theorem Writes.rewrite (db : Database S) {set : S.Row t → S.Row t}
    {key_set : ∀ r, S.key t (set r) = S.key t r} {ts : List S.Table} (ht : t ∈ ts) :
    db.Writes (db.rewrite t p set key_set) ts := by
  intro t' hnot
  have hne : t' ≠ t := fun heq => hnot (heq ▸ ht)
  exact Function.update_of_ne hne _ _

theorem selects_congr (h : db'.table t = db.table t) :
    db'.Selects t p rank r ↔ db.Selects t p rank r := by
  unfold Selects
  rw [matching_congr h]

theorem Exec.row_of_first (hp : ∀ r, p r = true ↔ S.key t r = k)
    (h : db.Exec (.first t p rank) (.ok r) db') : db' = db ∧ db.row t k = some r := by
  obtain ⟨hrow, hr⟩ := h.2.row_eq
  refine ⟨h.1, ?_⟩
  rwa [(hp r).mp hr] at hrow

theorem Exec.row_of_notFound (hp : ∀ r, p r = true ↔ S.key t r = k)
    (h : db.Exec (.first t p rank) (.error .notFound) db') : db' = db ∧ db.row t k = none := by
  refine ⟨h.1, Option.eq_none_iff_forall_ne_some.mpr fun r hr => ?_⟩
  have hkey := db.keyed t k r hr
  have hmem : r ∈ db.matching t p := by
    refine mem_matching_iff.mpr ⟨?_, (hp r).mpr hkey⟩
    rwa [hkey]
  rw [h.2] at hmem
  exact List.not_mem_nil hmem

end Lookups

/-! ## The deterministic execution is a possible one -/

theorem unassigned_nextSerial (db : Database S) (t : S.Table) :
    db.Unassigned t (db.nextSerial t) := by
  have hbound : ∀ (ns : List Nat) (n : Nat), n ∈ ns → n ≤ ns.foldr max 0 := by
    intro ns
    induction ns with
    | nil => intro n hn; cases hn
    | cons m ns ih =>
      intro n hn
      rw [List.foldr_cons]
      rcases List.mem_cons.mp hn with rfl | hn
      · exact le_max_left _ _
      · exact le_trans (ih n hn) (le_max_right _ _)
  refine ⟨Nat.succ_ne_zero _, fun r hr heq => ?_⟩
  have hle := hbound _ _ (List.mem_map_of_mem (f := S.serial t) hr)
  rw [heq, nextSerial] at hle
  omega

theorem perm_sorted (db : Database S) (t : S.Table) (where_ : S.Row t → Bool)
    (rank : S.Row t → Int × Int) : (db.sorted t where_ rank).Perm (db.matching t where_) :=
  List.perm_insertionSort _ _

theorem pairwise_sorted (db : Database S) (t : S.Table) (where_ : S.Row t → Bool)
    (rank : S.Row t → Int × Int) :
    (db.sorted t where_ rank).Pairwise fun a b => Precedes (rank a) (rank b) := by
  have : Std.Total fun a b : S.Row t => Precedes (rank a) (rank b) :=
    ⟨fun a b => precedes_total (rank a) (rank b)⟩
  have : IsTrans (S.Row t) fun a b => Precedes (rank a) (rank b) := ⟨fun _ _ _ h1 h2 => h1.trans h2⟩
  exact List.pairwise_insertionSort _ _

theorem exec_eval (db : Database S) (q : Statement S) : db.Exec q (db.eval q).1 (db.eval q).2 := by
  cases q with
  | first t p rank =>
    have hperm := db.perm_sorted t p rank
    have hpairwise := db.pairwise_sorted t p rank
    cases hsorted : db.sorted t p rank with
    | nil =>
      simp only [eval, hsorted]
      rw [hsorted] at hperm
      exact ⟨rfl, hperm.symm.eq_nil⟩
    | cons r rs =>
      simp only [eval, hsorted]
      rw [hsorted] at hperm hpairwise
      refine ⟨rfl, hperm.mem_iff.mp List.mem_cons_self, fun other hother => ?_⟩
      rcases List.mem_cons.mp (hperm.mem_iff.mpr hother) with rfl | hmem
      · exact .inr ⟨rfl, le_refl _⟩
      · exact (List.pairwise_cons.mp hpairwise).1 other hmem
  | find t p rank limit =>
    exact ⟨rfl, _, db.perm_sorted t p rank, db.pairwise_sorted t p rank, rfl⟩
  | count t p => exact ⟨rfl, rfl⟩
  | save t r | update t p set key_set | delete t p => rfl
  | insert t r onConflict =>
    have hfree := db.unassigned_nextSerial t
    cases hrow : db.row t (S.key t (r (db.nextSerial t))) with
    | none =>
      simp only [eval, hrow]
      exact ⟨_, hfree, by rw [hrow]⟩
    | some old =>
      cases onConflict with
      | none =>
        simp only [eval, hrow]
        rfl
      | some merge =>
        simp only [eval, hrow]
        exact ⟨_, hfree, by rw [hrow]⟩

/-- A selection of one row can be made, and so that ties are broken by a key. -/
theorem exists_selects {K : Type} [LinearOrder K] (db : Database S) {t : S.Table}
    {p : S.Row t → Bool} (rank : S.Row t → Int × Int) (key : S.Row t → K)
    (h : db.matching t p ≠ []) :
    ∃ r, db.Selects t p rank r ∧
      ∀ other ∈ db.matching t p, rank other = rank r → key r ≤ key other := by
  let f : S.Row t → Int ×ₗ Int ×ₗ K := fun r => toLex ((rank r).1, toLex ((rank r).2, key r))
  obtain ⟨r, hr⟩ : ∃ r, List.argmin f (db.matching t p) = some r :=
    Option.ne_none_iff_exists'.mp fun hnone => h (List.argmin_eq_none.mp hnone)
  have hle : ∀ other ∈ db.matching t p, (rank r).1 < (rank other).1 ∨
      (rank r).1 = (rank other).1 ∧ ((rank r).2 < (rank other).2 ∨
        (rank r).2 = (rank other).2 ∧ key r ≤ key other) := by
    intro other hother
    have hmin := List.le_of_mem_argmin hother hr
    rwa [Prod.Lex.le_iff, Prod.Lex.le_iff] at hmin
  refine ⟨r, ⟨List.argmin_mem hr, fun other hother => ?_⟩, fun other hother hrank => ?_⟩
  · rcases hle other hother with hlt | ⟨heq, hlt | ⟨heq', -⟩⟩
    · exact .inl hlt
    · exact .inr ⟨heq, hlt.le⟩
    · exact .inr ⟨heq, heq'.le⟩
  · have hthis := hle other hother
    rw [hrank] at hthis
    rcases hthis with hlt | ⟨-, hlt | ⟨-, hkey⟩⟩
    · exact absurd hlt (lt_irrefl _)
    · exact absurd hlt (lt_irrefl _)
    · exact hkey

end Database

end Lib
end Skyscale
