import Mathlib.Data.Char
import Mathlib.Data.List.Lex
import Mathlib.Data.List.Sort
import Skyscale.Lib.Bytes
import Skyscale.Lib.FinMap

/-!
# The hash of a model directory

`tree_hash` of `training/slime/prepare_model.py`.  A tree maps relative POSIX paths to the
contents of its files.  The names and contents are hashed one after another, in the order of
the paths, without anything between them, so the hash is that of one byte string (`stream`).
It identifies the tree exactly if the byte string tells where to cut it
(`tree_hash_identifies_iff`).
-/

namespace Skyscale
namespace Training

open Lib

/-- The files of a directory by their relative paths. -/
abbrev Tree : Type := FinMap String Bytes

/-- The parts of a path; `sorted` compares paths by them. -/
def pathParts (path : String) : List (List Char) := path.toList.splitOn '/'

/-- `sorted(p for p in path.rglob("*") if p.is_file())`. -/
def sortedFiles (t : Tree) : List (String × Bytes) :=
  (t.keys.insertionSort (pathParts · ≤ pathParts ·)).map fun path => (path, t.getD path [])

/-- The chunks that `handle.read(1024 * 1024)` returns until it returns nothing. -/
def readChunks (content : Bytes) : List Bytes :=
  if content = [] then []
  else content.take (1024 * 1024) :: readChunks (content.drop (1024 * 1024))
termination_by content.length
decreasing_by
  have hpos := List.length_pos_iff.mpr ‹content ≠ []›
  rw [List.length_drop]
  omega

/-- `tree_hash`: the digest is given the name and then the chunks of each file. -/
def treeHash {α : Type} (sha256 : Bytes → α) (t : Tree) : α :=
  sha256 ((sortedFiles t).foldl
    (fun digest item => (readChunks item.2).foldl (· ++ ·) (digest ++ utf8 item.1)) [])

/-! ## What is hashed -/

/-- The bytes of a tree in the order of its paths. -/
def stream (t : Tree) : Bytes := (sortedFiles t).flatMap fun item => utf8 item.1 ++ item.2

/-- How long the names and the contents are, in that order. -/
def cuts (t : Tree) : List (Nat × Nat) :=
  (sortedFiles t).map fun item => ((utf8 item.1).length, item.2.length)

/-- The trees have the same paths with the same contents. -/
def SameTree (t t' : Tree) : Prop := ∀ path, t.get path = t'.get path

theorem flatten_readChunks (content : Bytes) : (readChunks content).flatten = content := by
  fun_induction readChunks content with
  | case1 => rfl
  | case2 content _ ih => rw [List.flatten_cons, ih, List.take_append_drop]

theorem treeHash_eq {α : Type} (sha256 : Bytes → α) (t : Tree) :
    treeHash sha256 t = sha256 (stream t) := by
  have hchunks : ∀ (chunks : List Bytes) (digest : Bytes),
      chunks.foldl (· ++ ·) digest = digest ++ chunks.flatten := by
    intro chunks
    induction chunks with
    | nil => simp
    | cons chunk chunks ih => intro digest; simp [ih]
  have hfiles : ∀ (items : List (String × Bytes)) (digest : Bytes),
      items.foldl (fun digest item =>
        (readChunks item.2).foldl (· ++ ·) (digest ++ utf8 item.1)) digest =
      digest ++ items.flatMap fun item => utf8 item.1 ++ item.2 := by
    intro items
    induction items with
    | nil => simp
    | cons item items ih =>
      intro digest
      rw [List.foldl_cons, ih, hchunks, flatten_readChunks, List.flatMap_cons]
      simp only [List.append_assoc]
  rw [treeHash, hfiles, List.nil_append]
  rfl

theorem items_eq {items items' : List (String × Bytes)}
    (hbytes : items.flatMap (fun item => utf8 item.1 ++ item.2) =
      items'.flatMap fun item => utf8 item.1 ++ item.2)
    (hcuts : items.map (fun item => ((utf8 item.1).length, item.2.length)) =
      items'.map fun item => ((utf8 item.1).length, item.2.length)) : items = items' := by
  induction items generalizing items' with
  | nil => simpa using hcuts.symm
  | cons item items ih =>
    cases items' with
    | nil => simp at hcuts
    | cons item' items' =>
      obtain ⟨hcut, hrest⟩ := List.cons.inj hcuts
      obtain ⟨hname, hcontent⟩ := Prod.mk.inj hcut
      simp only [List.flatMap_cons, List.append_assoc] at hbytes
      obtain ⟨hencode, hbytes⟩ := List.append_inj hbytes hname
      obtain ⟨hsame, hbytes⟩ := List.append_inj hbytes hcontent
      rw [ih hbytes hrest, Prod.ext (utf8_injective hencode) hsame]

/-! ## The order of the files -/

theorem mem_sortedFiles {t : Tree} {path : String} {content : Bytes} :
    (path, content) ∈ sortedFiles t ↔ t.get path = some content := by
  simp only [sortedFiles, List.mem_map, List.mem_insertionSort, Prod.mk.injEq, FinMap.mem_keys_iff]
  constructor
  · rintro ⟨_, ⟨v, hv⟩, rfl, rfl⟩
    simp [FinMap.getD, hv]
  · intro h
    exact ⟨path, ⟨content, h⟩, rfl, by simp [FinMap.getD, h]⟩

theorem pathParts_injective : Function.Injective pathParts := by
  intro a b h
  have hlist := congrArg (['/'].intercalate) h
  rw [pathParts, pathParts, List.intercalate_splitOn, List.intercalate_splitOn] at hlist
  exact String.toList_inj.mp hlist

theorem sortedFiles_eq_iff {t t' : Tree} : sortedFiles t = sortedFiles t' ↔ SameTree t t' := by
  constructor
  · intro h path
    ext content
    rw [← mem_sortedFiles, ← mem_sortedFiles, h]
  · intro h
    have hkeys : t.keys.Perm t'.keys := by
      refine (List.perm_ext_iff_of_nodup t.keys_nodup t'.keys_nodup).mpr fun path => ?_
      rw [FinMap.mem_keys_iff, FinMap.mem_keys_iff, h path]
    have htotal : Std.Total (fun a b : String => pathParts a ≤ pathParts b) :=
      ⟨fun a b => le_total (pathParts a) (pathParts b)⟩
    have htrans : IsTrans String (fun a b => pathParts a ≤ pathParts b) :=
      ⟨fun _ _ _ hab hbc => le_trans hab hbc⟩
    have hsame : t.keys.insertionSort (pathParts · ≤ pathParts ·) =
        t'.keys.insertionSort (pathParts · ≤ pathParts ·) :=
      List.Perm.eq_of_pairwise
        (fun a b _ _ hab hba => pathParts_injective (le_antisymm hab hba))
        (List.pairwise_insertionSort _ _) (List.pairwise_insertionSort _ _)
        ((List.perm_insertionSort _ _).trans (hkeys.trans (List.perm_insertionSort _ _).symm))
    rw [sortedFiles, sortedFiles, hsame]
    exact List.map_congr_left fun path _ => by rw [FinMap.getD, FinMap.getD, h path]

/-- The hash identifies two trees, unless their names and contents, one after another, give
the same bytes but are cut at different places. -/
theorem tree_hash_identifies_iff {α : Type} (sha256 : Bytes → α)
    (hsha : Function.Injective sha256) (t t' : Tree) :
    (treeHash sha256 t = treeHash sha256 t' → SameTree t t') ↔
      (stream t = stream t' → cuts t = cuts t') := by
  rw [treeHash_eq, treeHash_eq, hsha.eq_iff]
  constructor
  · intro h hstream
    rw [cuts, cuts, sortedFiles_eq_iff.mpr (h hstream)]
  · intro h hstream
    exact sortedFiles_eq_iff.mp (items_eq hstream (h hstream))

/-- A directory, and the same files listed in another order. -/
def model : Tree :=
  FinMap.ofList [("config.json", [123, 125]), ("weights/1", [1, 2]), ("weights/2", [])]

def relisted : Tree :=
  FinMap.ofList [("weights/2", []), ("config.json", [123, 125]), ("weights/1", [1, 2])]

theorem tree_hash_identifies_relisted :
    treeHash id model = treeHash id relisted ∧ SameTree model relisted := by
  have hhash : treeHash id model = treeHash id relisted := by
    rw [treeHash_eq, treeHash_eq]
    decide +kernel
  exact ⟨hhash, (tree_hash_identifies_iff id Function.injective_id model relisted).mpr
    (fun _ => by decide +kernel) hhash⟩

/-- A file named `a` that contains `b`, and an empty file named `ab`. -/
def treeA : Tree := FinMap.ofList [("a", [98])]

def treeAB : Tree := FinMap.ofList [("ab", [])]

theorem tree_hash_collides : treeHash id treeA = treeHash id treeAB ∧ ¬SameTree treeA treeAB := by
  refine ⟨by rw [treeHash_eq, treeHash_eq]; decide +kernel, fun h => absurd (h "a") (by decide)⟩

end Training
end Skyscale
