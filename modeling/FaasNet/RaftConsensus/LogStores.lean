import Mathlib
import FaasNet.RaftConsensus.PeerHost

/-!
# The three log stores

`InMemoryLogStore` finds a record by its own index. `FileLogStore` appends the value of a record to a
text file and finds it by the number of its line, and `RocksDBLogStore` puts it under a counter of its
own. The file store gives back the number of the line, which counts from zero, where the others give
the index, which counts from one; so no index of a record is read alike, and the stores agree only
where all of them have nothing.

A text is the list of its characters. What is written in UTF-8 is read back, less a byte order mark at
the start of the file. A version is kept as its number, since `int.Parse` reads back the text it is
written as, and `JsonSerializer` gives back the record it wrote.
-/

namespace FaasNet.RaftConsensus

open PeerHost

/-! ## `FileLogStore` -/

/-- `Environment.NewLine`, which `AppendAllLines` ends a line with. -/
inductive Platform where
  | unix
  | windows

namespace Platform

def newLine : Platform → List Char
  | unix => ['\n']
  | windows => ['\r', '\n']

end Platform

namespace StreamReader

def byteOrderMark : Char := Char.ofNat 0xFEFF

/-- The reader skips a byte order mark at the start of the stream. -/
def skipPreamble : List Char → List Char
  | [] => []
  | c :: text => if c = byteOrderMark then text else c :: text

/-- The lines `ReadLine` gives until it returns `null`. A line ends at a line feed, at a carriage return
or at the two of them; text after the last end is a line too. -/
def readLines : List Char → List (List Char)
  | [] => []
  | c :: text =>
    if c = '\n' then [] :: readLines text
    else if c = '\r' then if text.head? = some '\n' then readLines text else [] :: readLines text
    else match readLines text with
      | [] => [[c]]
      | line :: lines => (c :: line) :: lines

/-- The ends of lines in a text. -/
def lineBreaks : List Char → Nat
  | [] => 0
  | c :: text => lineBreaks text + if c = '\n' ∨ (c = '\r' ∧ text.head? ≠ some '\n') then 1 else 0

theorem lineBreaks_pos (body text : List Char) : 0 < lineBreaks (body ++ '\n' :: text) := by
  induction body with
  | nil => simp [lineBreaks]
  | cons c body ih => exact Nat.add_pos_left ih _

/-- Where the text ends with a line feed, every line has its end. -/
theorem length_readLines (body : List Char) :
    (readLines (body ++ ['\n'])).length = lineBreaks (body ++ ['\n']) := by
  induction body with
  | nil => simp [readLines, lineBreaks]
  | cons c body ih =>
    obtain ⟨line, lines, split⟩ := List.exists_cons_of_length_pos (ih ▸ lineBreaks_pos body [])
    rw [split] at ih
    simp only [List.cons_append, readLines, lineBreaks, split]
    split_ifs <;> simp_all

theorem exists_readLines_cons (body : List Char) : ∃ line lines, readLines (body ++ ['\n']) = line :: lines := by
  have ends := lineBreaks_pos body []
  rw [← length_readLines] at ends
  exact List.exists_cons_of_length_pos ends

/-- A line feed starts a new line whatever comes before and after it. -/
theorem readLines_append (body text : List Char) :
    readLines (body ++ '\n' :: text) = readLines (body ++ ['\n']) ++ readLines text := by
  induction body with
  | nil => simp [readLines]
  | cons c body ih =>
    have next : (body ++ '\n' :: text).head? = (body ++ ['\n']).head? := by cases body <;> rfl
    obtain ⟨line, lines, split⟩ := exists_readLines_cons body
    simp only [List.cons_append, readLines, next, ih, split]
    split_ifs <;> rfl

/-- A byte order mark is part of a line. -/
theorem length_readLines_skipPreamble (body : List Char) :
    (readLines (skipPreamble (body ++ ['\n']))).length = (readLines (body ++ ['\n'])).length := by
  cases body with
  | nil => rfl
  | cons c body =>
    rw [List.cons_append, skipPreamble]
    split_ifs with mark
    · obtain ⟨line, lines, split⟩ := exists_readLines_cons body
      simp [readLines, split, mark, byteOrderMark]
    · rfl

end StreamReader

/-- The log file of a term; there is none before the first record. -/
structure FileLogStore where
  file : Option (List Char) := none

namespace FileLogStore

def add (platform : Platform) (store : FileLogStore) (logRecord : LogRecord String) : FileLogStore :=
  ⟨some (store.file.getD [] ++ (logRecord.value.toList ++ platform.newLine))⟩

/-- The loop of `Get`, which goes on after a line was found. -/
def scan (index : Int64) (currentLine : Int32) : List (List Char) → Option (LogRecord String) → Option (LogRecord String)
  | [], result => result
  | line :: lines, result =>
    scan index (currentLine + 1) lines
      (if index.toInt = currentLine.toInt then some ⟨currentLine.toInt, String.ofList line⟩ else result)

/-- `Get`; `none` is the exception for a file that is not there. -/
def get (store : FileLogStore) (index : Int64) : Option (Option (LogRecord String)) :=
  store.file.map fun text =>
    scan (index - 1) 0 (StreamReader.readLines (StreamReader.skipPreamble text)) none

end FileLogStore

/-! ## `RocksDBLogStore` -/

/-- The latest version of the term and its records by version. -/
structure RocksDBLogStore where
  logLatestVersion : Option Int32 := none
  logHistory : AList fun _ : String => LogRecord String := ∅

namespace RocksDBLogStore

def add (store : RocksDBLogStore) (logRecord : LogRecord String) : RocksDBLogStore :=
  let version := match store.logLatestVersion with
    | none => 1
    | some value => value + 1
  { logHistory := store.logHistory.insert (toString version.toInt) logRecord
    logLatestVersion := some version }

def get (store : RocksDBLogStore) (index : Int64) : Option (LogRecord String) :=
  store.logHistory.lookup (toString index.toInt)

end RocksDBLogStore

/-! ## A log and what the stores make of it -/

/-- The records one peer appends: their indices are one, two, three and so on. -/
def logOf (values : List String) : List (LogRecord String) :=
  values.mapIdx fun k value => ⟨k + 1, value⟩

/-- The stores give the same record or none of them has one, in whatever order the bag is. -/
def LogStoresAgree (platform : Platform) (values : List String) (index : Int64) : Prop :=
  ∀ bag, bag.Perm (logOf values) →
    ((logOf values).foldl (FileLogStore.add platform) {}).get index = some (getRecord bag index.toInt) ∧
      ((logOf values).foldl RocksDBLogStore.add {}).get index = getRecord bag index.toInt

/-- A value is appended with the next index. -/
theorem logOf_concat (values : List String) (value : String) :
    logOf (values ++ [value]) = logOf values ++ [⟨values.length + 1, value⟩] := List.mapIdx_concat

/-- Indices count from one. -/
theorem index_of_mem_logOf {values : List String} {r : LogRecord String} (member : r ∈ logOf values) :
    ∃ k < values.length, (k + 1 : Int) = r.index := by
  obtain ⟨k, inside, rfl⟩ := List.mem_mapIdx.mp member
  exact ⟨k, inside, rfl⟩

/-- Each index is that of a record. -/
theorem exists_mem_logOf {values : List String} {k : Nat} (inside : k < values.length) :
    ∃ r ∈ logOf values, r.index = k + 1 :=
  ⟨_, List.mem_mapIdx.mpr ⟨k, inside, rfl⟩, rfl⟩

/-! ### The bag -/

/-- No record is found exactly if the index is none of the log. -/
theorem getRecord_eq_none_iff {values : List String} {bag : List (LogRecord String)} (perm : bag.Perm (logOf values))
    {index : Int} : getRecord bag index = none ↔ ∀ k < values.length, (k + 1 : Int) ≠ index := by
  simp only [getRecord, List.find?_eq_none, decide_eq_true_eq]
  constructor
  · intro none k inside same
    obtain ⟨r, member, at_index⟩ := exists_mem_logOf inside
    exact none r (perm.symm.subset member) (at_index.trans same)
  · intro unused r member same
    obtain ⟨k, inside, at_index⟩ := index_of_mem_logOf (perm.subset member)
    exact unused k inside (at_index.trans same)

/-! ### The file -/

namespace FileLogStore

/-- The lines of the file: one for each record and one for each end of a line within a value. -/
def lineCount (platform : Platform) (values : List String) : Nat :=
  (values.map fun value => StreamReader.lineBreaks (value.toList ++ platform.newLine)).sum

/-- What the file holds. -/
def content (platform : Platform) (values : List String) : List Char :=
  values.flatMap fun value => value.toList ++ platform.newLine

theorem exists_line (platform : Platform) (value : List Char) : ∃ body, value ++ platform.newLine = body ++ ['\n'] := by
  cases platform with
  | unix => exact ⟨value, rfl⟩
  | windows => exact ⟨value ++ ['\r'], by simp [Platform.newLine]⟩

/-- As many lines are read as were written. -/
theorem length_readLines_content (platform : Platform) (values : List String) :
    (StreamReader.readLines (content platform values)).length = lineCount platform values := by
  induction values with
  | nil => rfl
  | cons value values ih =>
    obtain ⟨body, line⟩ := exists_line platform value.toList
    have first : content platform (value :: values) = body ++ '\n' :: content platform values := by
      simp [content, line]
    rw [first, StreamReader.readLines_append, List.length_append, StreamReader.length_readLines, ih, ← line]
    rfl

/-- Each record has a line of its own. -/
theorem length_le_lineCount (platform : Platform) (values : List String) :
    values.length ≤ lineCount platform values := by
  induction values with
  | nil => exact Nat.le_refl 0
  | cons value values ih =>
    obtain ⟨body, line⟩ := exists_line platform value.toList
    have ends := StreamReader.lineBreaks_pos body []
    simp only [lineCount, List.map_cons, List.sum_cons, List.length_cons, line] at ih ⊢
    omega

variable {platform : Platform} {values : List String} {index : Int64}

theorem exists_content (platform : Platform) (appended : values ≠ []) :
    ∃ body, content platform values = body ++ ['\n'] := by
  obtain ⟨before, value, rfl⟩ := (List.eq_nil_or_concat values).resolve_left appended
  obtain ⟨body, line⟩ := exists_line platform value.toList
  exact ⟨content platform before ++ body, by simp [content, line]⟩

/-- The file holds the values that were appended. -/
theorem file_ofLog :
    ((logOf values).foldl (add platform) {}).file = if values = [] then none else some (content platform values) := by
  induction values using List.reverseRecOn with
  | nil => rfl
  | append_singleton values value ih =>
    rw [logOf_concat, List.foldl_concat, add, ih]
    by_cases none : values = []
    · simp [none, content]
    · simp [none, content]

/-! A line that is found keeps being found, and gives the number it was looked for with. -/

/-- What is found stays found. -/
theorem scan_ne_none (index : Int64) (currentLine : Int32) (lines : List (List Char)) (r : LogRecord String) :
    scan index currentLine lines (some r) ≠ none := by
  induction lines generalizing currentLine r with
  | nil => simp [scan]
  | cons line lines ih =>
    rw [scan]
    split_ifs
    · exact ih _ _
    · exact ih _ _

/-- Nothing is found exactly if no line has the index. -/
theorem scan_eq_none (index : Int64) (n : Nat) (lines : List (List Char)) :
    scan index (Int32.ofNat n) lines none = none ↔
      ∀ j < lines.length, (Int32.ofNat (n + j)).toInt ≠ index.toInt := by
  induction lines generalizing n with
  | nil => simp [scan]
  | cons line lines ih =>
    have next : Int32.ofNat n + 1 = Int32.ofNat (n + 1) := (Int32.ofNat_add n 1).symm
    rw [scan, List.length_cons, Nat.forall_lt_succ_left, Nat.add_zero, next]
    by_cases found : index.toInt = (Int32.ofNat n).toInt
    · simp [found, scan_ne_none]
    · rw [if_neg found, ih]
      simp only [ne_comm.mp found, true_and, ne_eq, not_false_eq_true, Nat.add_right_comm n, Nat.add_assoc]

/-- What is found has the index. -/
theorem index_of_scan {currentLine : Int32} {lines : List (List Char)} {result : Option (LogRecord String)}
    {r : LogRecord String} (found : scan index currentLine lines result = some r)
    (already : ∀ r ∈ result, r.index = index.toInt) : r.index = index.toInt := by
  induction lines generalizing currentLine result with
  | nil => exact already r found
  | cons line lines ih =>
    refine ih found fun r' inside => ?_
    split_ifs at inside with here
    · rw [← Option.some_inj.mp inside, here]
    · exact already r' inside

/-- The file has no record for an index exactly if no line has the one before. -/
theorem get_ofLog_eq_none :
    ((logOf values).foldl (add platform) {}).get index = some none ↔
      values ≠ [] ∧ ∀ j < lineCount platform values, (Int32.ofNat j).toInt ≠ (index - 1).toInt := by
  rw [get, file_ofLog]
  by_cases none : values = []
  · simp [none]
  · obtain ⟨body, text⟩ := exists_content platform none
    rw [if_neg none, Option.map_some, Option.some_inj, text, ← length_readLines_content, text,
      ← StreamReader.length_readLines_skipPreamble]
    have start := scan_eq_none (index - 1) 0 (StreamReader.readLines (StreamReader.skipPreamble (body ++ ['\n'])))
    simp only [Nat.zero_add] at start
    exact start.trans (by simp [none])

/-- What the file gives for an index is the record before. -/
theorem index_of_get {store : FileLogStore} {r : LogRecord String} (found : store.get index = some (some r)) :
    r.index = (index - 1).toInt := by
  obtain ⟨text, -, found⟩ := Option.map_eq_some_iff.mp found
  exact index_of_scan found (by simp)

end FileLogStore

/-! ### The databases -/

namespace RocksDBLogStore

/-- The counter has gone round where it no longer fits. -/
theorem logLatestVersion_ofLog (values : List String) :
    ((logOf values).foldl add {}).logLatestVersion =
      if values = [] then none else some (Int32.ofNat values.length) := by
  induction values using List.reverseRecOn with
  | nil => rfl
  | append_singleton values value ih =>
    rw [logOf_concat, List.foldl_concat, add, ih]
    by_cases none : values = []
    · simp [none]
    · simp [none, Int32.ofNat_add]

/-- A value is kept under its index as a key. -/
theorem logHistory_add (values : List String) (value : String) :
    ((logOf (values ++ [value])).foldl add {}).logHistory =
      ((logOf values).foldl add {}).logHistory.insert (toString (Int32.ofNat (values.length + 1)).toInt)
        ⟨values.length + 1, value⟩ := by
  rw [logOf_concat, List.foldl_concat, add, logLatestVersion_ofLog]
  by_cases none : values = []
  · simp [none]
  · simp [none, Int32.ofNat_add]

/-- Memory has no record for an index exactly if none was appended with it. -/
theorem get_ofLog_eq_none {values : List String} {index : Int64} :
    ((logOf values).foldl add {}).get index = none ↔
      ∀ k < values.length, (Int32.ofNat (k + 1)).toInt ≠ index.toInt := by
  induction values using List.reverseRecOn with
  | nil => simp [get, logOf]
  | append_singleton values value ih =>
    have text {version : Int32} : toString index.toInt = toString version.toInt ↔ index.toInt = version.toInt :=
      Int.repr_inj
    rw [get, logHistory_add, List.length_append, List.length_singleton, Nat.forall_lt_succ_right, ← ih]
    by_cases here : index.toInt = (Int32.ofNat (values.length + 1)).toInt
    · simp [here]
    · rw [AList.lookup_insert_ne (mt text.mp here)]
      exact (and_iff_left (ne_comm.mp here)).symm

end RocksDBLogStore

/-! ## When the stores agree -/

/-- Something was appended, and the index is that of no record, its predecessor the number of no line
and itself the version of no record, where a line and a version are counted in 32 bits. -/
structure IndexUnused (platform : Platform) (values : List String) (index : Int) : Prop where
  appended : values ≠ []
  record : ∀ k < values.length, (k + 1 : Int) ≠ index
  line : ∀ j < FileLogStore.lineCount platform values, (Int32.ofNat j).toInt ≠ index - 1
  version : ∀ k < values.length, (Int32.ofNat (k + 1)).toInt ≠ index

/-- The predecessor of the smallest index wraps round to the greatest one, which is the number of no line
either. -/
theorem toInt_eq_pred_iff (line : Int32) (index : Int64) :
    line.toInt = (index - 1).toInt ↔ line.toInt = index.toInt - 1 := by
  have low := line.le_toInt
  have high := line.toInt_lt
  have least := index.le_toInt
  have greatest := index.toInt_lt
  have one : (1 : Int64).toInt = 1 := by decide
  rw [Int64.toInt_sub, one]
  simp only [Int.bmod_def]
  omega

/-- In a file whose lines 32 bits can count, these are the indices below one and above the last line. -/
theorem indexUnused_iff_of_small {platform : Platform} {values : List String} {index : Int}
    (small : FileLogStore.lineCount platform values < 2 ^ 31) :
    IndexUnused platform values index ↔
      values ≠ [] ∧ (index ≤ 0 ∨ FileLogStore.lineCount platform values < index) := by
  have records := FileLogStore.length_le_lineCount platform values
  have counted (n : Nat) (fits : n < 2 ^ 31) : (Int32.ofNat n).toInt = n := by
    rw [Int32.toInt_ofNat']
    simp only [Int.bmod_def, Int32.size]
    omega
  constructor
  · intro unused
    refine ⟨unused.appended, ?_⟩
    by_contra inside
    push Not at inside
    refine unused.line (index - 1).toNat (by omega) ?_
    rw [counted _ (by omega)]
    omega
  · rintro ⟨appended, outside⟩
    refine ⟨appended, fun k inside => by omega, fun j inside => ?_, fun k inside => ?_⟩
    · rw [counted j (by omega)]
      omega
    · rw [counted (k + 1) (by omega)]
      omega

theorem pred_ne (index : Int64) : (index - 1).toInt ≠ index.toInt := by
  have least := index.le_toInt
  have greatest := index.toInt_lt
  have one : (1 : Int64).toInt = 1 := by decide
  rw [Int64.toInt_sub, one]
  simp only [Int.bmod_def]
  omega

/-- **The log stores agree exactly where none of them has a record.** -/
theorem log_stores_agree_iff (platform : Platform) (values : List String) (index : Int64) :
    LogStoresAgree platform values index ↔ IndexUnused platform values index.toInt := by
  constructor
  · intro agree
    obtain ⟨file, rocksDB⟩ := agree (logOf values) (.refl _)
    -- A record of the bag has the index itself, one of the file its predecessor.
    have nothing : getRecord (logOf values) index.toInt = none := by
      cases found : getRecord (logOf values) index.toInt with
      | none => rfl
      | some r =>
        have own : r.index = index.toInt := by simpa using List.find?_some found
        rw [found] at file
        exact absurd ((FileLogStore.index_of_get file).symm.trans own) (pred_ne index)
    rw [nothing] at file rocksDB
    obtain ⟨appended, line⟩ := FileLogStore.get_ofLog_eq_none.mp file
    refine ⟨appended, (getRecord_eq_none_iff (.refl _)).mp nothing, fun j inside => ?_,
      RocksDBLogStore.get_ofLog_eq_none.mp rocksDB⟩
    rw [ne_eq, ← toInt_eq_pred_iff]
    exact line j inside
  · intro unused bag perm
    rw [(getRecord_eq_none_iff perm).mpr unused.record, FileLogStore.get_ofLog_eq_none,
      RocksDBLogStore.get_ofLog_eq_none]
    refine ⟨⟨unused.appended, fun j inside => ?_⟩, unused.version⟩
    rw [ne_eq, toInt_eq_pred_iff]
    exact unused.line j inside

/-- The first record of a log has the index one in two of the stores and zero in the third. -/
theorem file_counts_from_zero :
    ¬ ∀ (platform : Platform) (values : List String) (index : Int64), LogStoresAgree platform values index := by
  intro agree
  obtain ⟨file, -⟩ := agree .unix ["value"] 1 (logOf ["value"]) (.refl _)
  have inMemory : getRecord (logOf ["value"]) (1 : Int64).toInt = some ⟨1, "value"⟩ := by decide
  rw [inMemory] at file
  exact absurd (FileLogStore.index_of_get file) (by decide)

end FaasNet.RaftConsensus
