import LineShell.Files.Tree
import LineShell.Launch.Options

/-!
# What programs do to the files

Of the programs that a machine knows, two change files: one makes files, the other directories.
Both go on after an argument that they cannot serve, and do nothing at all where they do not
understand an option.

* `MakerOption` — the options of the two, by what they mean here.
* `isStamp`, `isDateText`, `isTimeWord` — values that are understood.
* **`Program.run`** — the files after a program has run.
-/

namespace LineShell

/-- What the options of the programs that make something mean. -/
inductive MakerOption where
  /-- Changes nothing about what is made. -/
  | plain
  /-- Asks for a text instead. -/
  | explain
  /-- Nothing that is missing is made. -/
  | onlyOld
  /-- Directories above are made, too. -/
  | withParents
  | rights
  /-- The time to be set, in digits. -/
  | stamp
  | date
  /-- The file to take the time from. -/
  | reference
  /-- The word for which of the times is to be set. -/
  | which
  deriving DecidableEq, Repr

/-- The options that every program has. -/
def explainForms : List (OptionForm MakerOption) :=
  [⟨.explain, none, "help", .nothing⟩, ⟨.explain, none, "version", .nothing⟩]

/-- The options of the program that makes files. -/
def touchForms : List (OptionForm MakerOption) :=
  [⟨.plain, 'a', none, .nothing⟩, ⟨.onlyOld, 'c', "no-create", .nothing⟩,
    ⟨.date, 'd', "date", .value⟩, ⟨.plain, 'f', none, .nothing⟩,
    ⟨.onlyOld, 'h', "no-dereference", .nothing⟩, ⟨.plain, 'm', none, .nothing⟩,
    ⟨.reference, 'r', "reference", .value⟩, ⟨.stamp, 't', none, .value⟩,
    ⟨.which, none, "time", .value⟩] ++ explainForms

/-- The options of the program that makes directories. -/
def mkdirForms : List (OptionForm MakerOption) :=
  [⟨.rights, 'm', "mode", .value⟩, ⟨.withParents, 'p', "parents", .nothing⟩,
    ⟨.plain, 'v', "verbose", .nothing⟩, ⟨.plain, 'Z', none, .nothing⟩,
    ⟨.plain, none, "context", .joined⟩] ++ explainForms

/-! ## Values of options -/

/-- A time in digits: month, day, hour and minute in two digits each, the year with or without its
century in front of them, and the seconds behind a point. -/
def isStamp (value : Bytes) : Bool :=
  let digits := value.takeWhile (Bytes.isDigit 10)
  let rest := value.dropWhile (Bytes.isDigit 10)
  [8, 10, 12].contains digits.length &&
    (rest.isEmpty || (rest.head? == some 0x2E && rest.length == 3
      && (rest.drop 1).all (Bytes.isDigit 10)))

/-- Whether a text has a shape, in which `0` stands for any digit. -/
def hasShape (shape value : Bytes) : Bool :=
  shape.length == value.length &&
    (shape.zip value).all fun p => if p.1 = 0x30 then Bytes.isDigit 10 p.2 else p.1 == p.2

/-- A time in words: a word for a moment, the letter of a time zone, a number of seconds, or a day
with or without a time. -/
def isDateText (value : Bytes) : Bool :=
  ["", "now", "today", "yesterday", "tomorrow"].any (Bytes.ofString · = value)
    || (value.length == 1 && value.all fun b => (Char.ofNat b.toNat).isAlpha)
    || (value.head? == some 0x40 && 1 < value.length && (value.drop 1).all (Bytes.isDigit 10))
    || ["0000-00-00", "0000-00-00 00:00", "0000-00-00T00:00", "0000-00-00 00:00:00",
        "0000-00-00T00:00:00"].any fun shape => hasShape (Bytes.ofString shape) value

def timeWords : List String :=
  ["atime", "access", "use", "mtime", "modify"]

/-- Whether a value is one of the words for the times of a file, or begins words of one meaning. -/
def isTimeWord (value : Bytes) : Bool :=
  let begun (ws : List String) := ws.any fun w => value.isPrefixOf (Bytes.ofString w)
  begun (timeWords.take 3) != begun (timeWords.drop 3)

/-! ## Running -/

/-- Whether the options of a program that makes something let it do its work.  A time has one
source, the last file or the last words. -/
def optionsServe (t : FileTree) (place : Place) (options : List (MakerOption × Bytes)) : Bool :=
  let values (o : MakerOption) := (options.filter (·.1 = o)).map (·.2)
  let given (o : MakerOption) := !(values o).isEmpty
  !given .explain && (values .stamp).all isStamp && (values .which).all isTimeWord
    && (values .date).getLast?.all isDateText
    && (values .reference).getLast?.all (t.pathExists place)
    && !(given .stamp && (given .date || given .reference))

/-- The rights that new directories get, which the last value for them decides. -/
def newRights? (options : List (MakerOption × Bytes)) : Option Rights :=
  match (options.filter (·.1 = .rights)).getLast? with
  | none => some .newDirectory
  | some o => Rights.ofText? o.2

/-- The files after each of some paths was made, as far as it could be. -/
def makeEach (make : FileTree → Bytes → Except FileError FileTree) (paths : List Bytes)
    (t : FileTree) : FileTree :=
  paths.foldl (fun t path => (make t path).toOption.getD t) t

/-- The files after some directories were made as the options say. -/
def makeDirectories (t : FileTree) (place : Place) (g : Given MakerOption) : FileTree :=
  match newRights? g.options with
  | none => t
  | some rights =>
    if g.options.any (·.1 = .withParents) then
      g.operands.foldl (·.createDirectories place · rights) t
    else makeEach (·.createDirectory place · rights) g.operands t

/-- **The files after a program has run**, given the place it runs at and its arguments. -/
def Program.run (p : Program) (place : Place) (args : List Bytes) (t : FileTree) : FileTree :=
  let serving (forms : List (OptionForm MakerOption)) : Option (Given MakerOption) :=
    (readGiven forms args).filter fun g => optionsServe t place g.options
  match p with
  | .idle => t
  | .touch => match serving touchForms with
    | none => t
    | some g =>
      if g.options.any (·.1 = .onlyOld) then t
      -- A lone dash stands for the standard output, which is no file to make.
      else makeEach (·.createFile place ·) (g.operands.filter (· ≠ [0x2D])) t
  | .mkdir => match serving mkdirForms with
    | none => t
    | some g => makeDirectories t place g

end LineShell
