/-
Disks.

A disk is a value: which folders and files stand where, and the folder in
which paths begin that do not begin with a slash. A place is given by the
names on the way to it from the root. There are no links, so the folder
above is the place without its last name.

A path is followed name by name through folders that are there. Reading
asks for what stands under its last name; writing puts a file there,
whether there was one or not, but makes no folders. What was written is
read under the same path (`read_of_write`): the new file stands where no
folder was, so no path is led another way by it.
-/
import KnnOracle.Dictionary
import KnnOracle.Storage.FileSystem
import KnnOracle.Storage.Path

namespace KnnOracle.Storage

/-- A place on a disk: the names on the way to it from the root. -/
abbrev Place : Type := List Name

/-- What stands at a place. -/
inductive Entry where
  | folder
  | file (content : Content)

-- ================================================================ places

/-- What is known of a disk: what stands at which places. -/
abbrev Entries : Type := Dictionary Place Entry

namespace Entries

/-- What stands at a place. The root is always there. -/
def at? (entries : Entries) : Place → Option Entry
  | [] => some .folder
  | place => entries.get? place

/-- Whether a folder stands at a place. -/
def isFolder (entries : Entries) (place : Place) : Bool :=
  match entries.at? place with
  | some .folder => true
  | _ => false

/-- A place is a folder if there is an entry that says so. -/
private theorem isFolder_iff {entries : Entries} {place : Place} :
    entries.isFolder place ↔ entries.at? place = some .folder := by
  unfold isFolder
  split
  · next h => exact iff_of_true rfl h
  · next h => exact iff_of_false Bool.false_ne_true h

/-- What stands at a place that is not the root stands under a key. -/
theorem mem_keys_of_isFolder {entries : Entries} {folder : Place}
    {name : Name} (h : entries.isFolder (folder ++ [name])) :
    folder ++ [name] ∈ entries.keys := by
  refine Dictionary.mem_keys ?_
  have hthere := isFolder_iff.mp h
  cases hplace : folder ++ [name] with
  | nil => cases folder <;> cases hplace
  | cons first rest =>
      rw [hplace, at?] at hthere
      · rw [hthere]
        rfl
      · exact List.cons_ne_nil _ _

/-- A file is put where it belongs, and nowhere else. -/
theorem at?_put (entries : Entries) (folder : Place) (name : Name)
    (entry : Entry) (place : Place) :
    at? (entries.put (folder ++ [name]) entry) place
      = if place = folder ++ [name] then some entry
        else entries.at? place := by
  cases place with
  | nil => simp [at?]
  | cons first rest =>
      simp only [at?, Dictionary.get?_put]
      by_cases h : folder ++ [name] = first :: rest
      · rw [if_pos h, if_pos h.symm]
      · rw [if_neg h, if_neg (Ne.symm h)]

/-- A file that replaces no folder leaves the folders as they are. -/
theorem isFolder_put {entries : Entries} {folder : Place} {name : Name}
    (h : entries.isFolder (folder ++ [name]) = false) (content : Content)
    (place : Place) :
    isFolder (entries.put (folder ++ [name]) (.file content)) place
      = entries.isFolder place := by
  unfold isFolder
  rw [at?_put]
  by_cases hplace : place = folder ++ [name]
  · rw [if_pos hplace, hplace]
    exact h.symm
  · rw [if_neg hplace]

end Entries

-- ================================================================= disks

/-- Folders and files, one in another, and the folder to begin in. -/
structure Disk where
  entries : Entries
  /-- Where a path begins that does not begin with a slash. -/
  here : Place
  /-- What is there stands in a folder. -/
  nested : ∀ place ∈ entries.keys, entries.isFolder place.dropLast
  /-- Paths begin in a folder. -/
  begins : entries.isFolder here

namespace Disk

/-- A disk with an empty folder to begin in. -/
def empty : Disk where
  entries := ⟨[(["work".toList], .folder)]⟩
  here := ["work".toList]
  nested := by decide
  begins := by decide

/-- The place that a name leads to from a folder. -/
def enter (d : Disk) (folder : Place) (name : Name) : Except FileFault Place :=
  if name.isIdle then .ok folder
  else if name.isBack then .ok folder.dropLast
  else if name.isTooLong then .error .nameTooLong
  else
    match d.entries.at? (folder ++ [name]) with
    | none => .error .notFound
    | some (.file _) => .error .notDirectory
    | some .folder => .ok (folder ++ [name])

/-- Follows names, one after the other. -/
def follow (d : Disk) (folder : Place) : List Name → Except FileFault Place
  | [] => .ok folder
  | name :: rest =>
      match d.enter folder name with
      | .error e => .error e
      | .ok next => d.follow next rest

/-- Where a path begins. -/
def start (d : Disk) (path : String) : Place :=
  if path.toList.head? == some '/' then [] else d.here

/-- Where a path leads: to a folder, and to a name in it if there is one. -/
def locate (d : Disk) (path : String) :
    Except FileFault (Place × Option Name) :=
  match fault? path with
  | some e => .error e
  | none =>
      match d.follow (d.start path) (route path).1 with
      | .error e => .error e
      | .ok folder => .ok (folder, (route path).2)

/-- The content of the file that a path leads to. -/
def read (d : Disk) (path : String) : Except FileFault Content :=
  match d.locate path with
  | .error e => .error e
  | .ok (_, none) => .error .isDirectory
  | .ok (folder, some name) =>
      if name.isTooLong then .error .nameTooLong
      else
        match d.entries.at? (folder ++ [name]) with
        | none => .error .notFound
        | some .folder => .error .isDirectory
        | some (.file content) =>
            if endsInSlash path then .error .notDirectory else .ok content

-- =============================================================== folders

variable {d : Disk} {folder place : Place} {name : Name} {path : String}

/-- What stands somewhere stands in a folder. -/
theorem isFolder_dropLast (h : d.entries.isFolder place) :
    d.entries.isFolder place.dropLast := by
  rcases place.eq_nil_or_concat with rfl | ⟨above, last, hplace⟩
  · exact h
  · rw [List.concat_eq_append] at hplace
    subst hplace
    rw [List.dropLast_concat]
    have hfolder := d.nested _ (Entries.mem_keys_of_isFolder h)
    rwa [List.dropLast_concat] at hfolder

/-- A name that leads anywhere leads to a folder. -/
theorem isFolder_of_enter (hfolder : d.entries.isFolder folder)
    (h : d.enter folder name = .ok place) : d.entries.isFolder place := by
  rw [enter] at h
  split at h
  · cases h
    exact hfolder
  split at h
  · cases h
    exact isFolder_dropLast hfolder
  split at h
  · cases h
  split at h <;> cases h
  next hthere => rw [Entries.isFolder, hthere]

/-- Names that are followed lead to a folder. -/
theorem isFolder_of_follow {names : List Name}
    (hfolder : d.entries.isFolder folder)
    (h : d.follow folder names = .ok place) : d.entries.isFolder place := by
  induction names generalizing folder with
  | nil =>
      cases h
      exact hfolder
  | cons name rest ih =>
      rw [follow] at h
      cases henter : d.enter folder name with
      | error e => rw [henter] at h; cases h
      | ok next =>
          rw [henter] at h
          exact ih (isFolder_of_enter hfolder henter) h

/-- A path starts at a folder: the root or the one where the program runs. -/
private theorem isFolder_start : d.entries.isFolder (d.start path) := by
  unfold start
  split
  · rfl
  · exact d.begins

/-- The folder that a path leads to is there. -/
theorem isFolder_of_locate {last : Option Name}
    (h : d.locate path = .ok (folder, last)) : d.entries.isFolder folder := by
  rw [locate] at h
  split at h
  · cases h
  split at h
  · cases h
  · next hfollow =>
      cases h
      exact isFolder_of_follow isFolder_start hfollow

-- =============================================================== writing

/-- Puts a file into a folder. It may replace a file, but no folder. -/
def put (d : Disk) (folder : Place) (name : Name) (content : Content)
    (hfolder : d.entries.isFolder folder)
    (hfree : d.entries.isFolder (folder ++ [name]) = false) : Disk where
  entries := d.entries.put (folder ++ [name]) (.file content)
  here := d.here
  nested place h := by
    rw [Entries.isFolder_put hfree]
    rcases Dictionary.mem_keys_put h with rfl | h
    · rwa [List.dropLast_concat]
    · exact d.nested place h
  begins := by
    rw [Entries.isFolder_put hfree]
    exact d.begins

/-- The disk after a file was written. -/
def write (d : Disk) (path : String) (content : Content) :
    Except FileFault Disk :=
  match hlocate : d.locate path with
  | .error e => .error e
  | .ok (_, none) => .error .isDirectory
  | .ok (folder, some name) =>
      if endsInSlash path then .error .isDirectory
      else if name.isTooLong then .error .nameTooLong
      else if hthere : d.entries.isFolder (folder ++ [name]) = false then
        .ok (d.put folder name content (isFolder_of_locate hlocate) hthere)
      else .error .isDirectory

/-- A file can be written under every path that leads to a name in a folder,
unless the path ends in a slash, the name is too long or a folder's own. -/
theorem exists_write_iff {content : Content} :
    (∃ after, d.write path content = .ok after) ↔
      ∃ folder name, d.locate path = .ok (folder, some name) ∧
        ¬ endsInSlash path ∧ ¬ name.isTooLong ∧
        d.entries.isFolder (folder ++ [name]) = false := by
  constructor
  · rintro ⟨after, h⟩
    unfold write at h
    split at h
    · cases h
    · cases h
    · next folder name hlocate =>
        split at h
        · cases h
        next hslash =>
        split at h
        · cases h
        next hlong =>
        split at h
        · next hfree => exact ⟨folder, name, hlocate, hslash, hlong, hfree⟩
        · cases h
  · rintro ⟨folder, name, hlocate, hslash, hlong, hfree⟩
    refine ⟨d.put folder name content (isFolder_of_locate hlocate) hfree, ?_⟩
    unfold write
    split
    · next h => cases hlocate.symm.trans h
    · next h => cases hlocate.symm.trans h
    · next h =>
        cases hlocate.symm.trans h
        rw [if_neg hslash, if_neg hlong, dif_pos hfree]

section put

variable {content : Content} {hfolder : d.entries.isFolder folder}
  {hfree : d.entries.isFolder (folder ++ [name]) = false}

/-- What was put is there. -/
private theorem at?_put_self :
    (d.put folder name content hfolder hfree).entries.at? (folder ++ [name])
      = some (.file content) := by
  rw [put, Entries.at?_put, if_pos rfl]

/-- A name leads where it led before a file was put somewhere: if it led to
a folder, the file is not the one that the name is about. -/
theorem enter_put {start : Place} {next : Name}
    (h : d.enter start next = .ok place) :
    (d.put folder name content hfolder hfree).enter start next
      = .ok place := by
  rw [enter] at h ⊢
  split
  · next hidle => rwa [if_pos hidle] at h
  next hidle =>
  rw [if_neg hidle] at h
  split
  · next hback => rwa [if_pos hback] at h
  next hback =>
  rw [if_neg hback] at h
  split
  · next hlong => rwa [if_pos hlong] at h
  next hlong =>
  rw [if_neg hlong] at h
  split at h <;> cases h
  next hthere =>
  have hstays : (d.put folder name content hfolder hfree).entries.at?
      (start ++ [next]) = some .folder := by
    rw [← Entries.isFolder_iff, put, Entries.isFolder_put hfree,
      Entries.isFolder_iff, hthere]
  rw [hstays]

/-- Putting a file closes no way, since it takes the place of nothing but a
file or of no entry. -/
private theorem follow_put {start : Place} {names : List Name}
    (h : d.follow start names = .ok place) :
    (d.put folder name content hfolder hfree).follow start names
      = .ok place := by
  induction names generalizing start with
  | nil => exact h
  | cons next rest ih =>
      rw [follow] at h ⊢
      cases henter : d.enter start next with
      | error e => rw [henter] at h; cases h
      | ok entered =>
          rw [henter] at h
          rw [enter_put henter]
          exact ih h

/-- Putting a file leads no path elsewhere. -/
private theorem locate_put {last : Place × Option Name}
    (h : d.locate path = .ok last) :
    (d.put folder name content hfolder hfree).locate path = .ok last := by
  unfold locate at h ⊢
  split at h
  · cases h
  split at h
  · cases h
  · next hfollow =>
      have hstays :=
        @follow_put d folder _ name content hfolder hfree _ _ hfollow
      rw [show start (d.put folder name content hfolder hfree) path
        = d.start path from rfl, hstays]
      exact h

end put

/-- What was written under a path is read under it. -/
theorem read_of_write {after : Disk} {content : Content}
    (h : d.write path content = .ok after) :
    after.read path = .ok content := by
  rw [write] at h
  split at h
  · cases h
  · cases h
  · next folder name hlocate =>
      split at h
      · cases h
      next hslash =>
      split at h
      · cases h
      next hlong =>
      split at h
      · next hfree =>
          cases h
          rw [read, locate_put hlocate]
          dsimp only
          rw [if_neg hlong, at?_put_self]
          dsimp only
          rw [if_neg hslash]
      · cases h

end Disk

instance : FileSystem Disk where
  read := Disk.read
  write := Disk.write
  read_of_write := Disk.read_of_write

end KnnOracle.Storage
