import ObjectModel.Script.Operand

/-!
Performing operations. Operands are evaluated in the order in which the operation lists them, then
the operation is carried out on the world. An operation that goes through its first operand to what
it acts on does so before it evaluates the second.
-/

namespace ObjectModel.Script

namespace Eval

def ofHandle (h : Handle) : Reply := .ok (.handle h)

def allocated (view : View) (action : Action ObjectId) : Eval Reply := do
  return ofHandle (.object (← act action) view)

def ofClass (c : Option ClassId) : Eval Reply := do return ofHandle (← classHandle c)

def flag (action : Action Bool) : Eval Reply := do return .ok (.flag (← act action))

def number (action : Action Int) : Eval Reply := do return .ok (.number (← act action))

def nothing (action : Action Unit) : Eval Reply := do
  act action
  return .ok .nothing

/-- Initialises a header for the object that a handle leads to. A table must be there and the
object too; one that has been initialised cannot be so again. -/
def initialiseAgain (h : Handle) (table : Option DispatchTable) : Action Unit :=
  match h, table with
  | _, none => Action.crash .nullTable
  | .null, some _ => Action.crash .nullInstance
  | .typedNull _, some _ | .blankFlat, some _ => Action.crash .nullDereference
  | .object _ _, some _ => Action.crash .initialisedTwice

def embeddedView (h : Handle) (view : View) : Eval Handle :=
  match h with
  | .object id here =>
    if here.embedded.contains view then return .object id view else throw .unsuitable
  | .typedNull _ => act (Action.crash .nullDereference)
  | _ => throw .unsuitable

def object : ObjectOp → Eval Reply
  | .newObject => allocated .plain (Action.allocate .object .plain)
  | .newString text => allocated .string (Action.newString text)
  | .newPoint x y => allocated .point (Action.newPoint x y)
  | .newColorPoint x y color => do
    let color ← viewOperand .string color
    allocated .colorPoint (Action.newColorPoint x y color)
  | .newAlphaPoint x y color alpha => do
    let color ← viewOperand .string color
    allocated .alphaPoint (Action.newAlphaPoint x y color alpha)
  | .newList next item => do
    let next ← viewOperand .list next
    allocated .list (Action.newList item next)
  | .newBare c => do
    let table ← act (tableOfClass (← classOperand c))
    allocated .bare (Action.initialise table .bare)
  | .newBareOf table => do
    let table ← tableOperand table
    allocated .bare (Action.initialise table .bare)
  | .newAlphaPointOf table x y color alpha => do
    let table ← tableOperand table
    let color ← viewOperand .string color
    allocated .alphaPoint (Action.initialise table (.alphaPoint x y color alpha))
  | .newFlat c => do
    let table ← act (tableOfClass (← classOperand c))
    allocated .flat (Action.initialise table .flat)
  | .view e view => do return ofHandle (← embeddedView (← refOperand e) view)
  | .value e => do return ofHandle (← refOperand e)
  | .initialise .null table => do
    let table ← tableOperand table
    nothing (initialiseAgain .null table)
  | .initialise e table => do
    let h ← refOperand e
    if h.isNull then act (Action.crash .nullDereference)
    let table ← tableOperand table
    nothing (initialiseAgain h table)
  | .hashCode e => do
    let h ← refOperand e
    number do
      Action.checkNotNull h
      return (← Action.hashCode h).toInt
  | .getClass e => do
    let h ← refOperand e
    ofClass (← act do
      Action.checkNotNull h
      Action.objectGetClass h)
  | .toString e => do
    let h ← refOperand e
    allocated .string do
      Action.checkNotNull h
      Action.toString h
  | .equals e other => do
    let h ← refOperand e
    let other ← refOperand other
    flag do
      Action.checkNotNull h
      Action.equals h other
  | .objectHashCode e => do
    let h ← refOperand e
    number do return (← Action.objectHashCode h).toInt
  | .objectGetClass e => do
    let h ← refOperand e
    ofClass (← act (Action.objectGetClass h))
  | .objectToString e => do
    let h ← refOperand e
    allocated .string (Action.objectToString h)
  | .objectEquals e other => do
    let h ← refOperand e
    let other ← refOperand other
    flag (Action.objectEquals h other)
  | .horizontal e => do
    let h ← refOperand e
    number do
      Action.checkNotNull h
      return (← Action.horizontal h).toInt
  | .isNull e => do return .ok (.flag (← refOperand e).isNull)
  | .checkNotNull e => do
    let h ← refOperand e
    act (Action.checkNotNull h)
    return ofHandle h
  | .release e => do
    let h ← refOperand e
    flag (Action.release h)
  | .outermost e => do
    let h ← refOperand e
    return ofHandle (← act (Action.outermost h))
  | .tableOf e => do
    let h ← refOperand e
    let o ← act do Action.object (← Action.target h)
    return .ok (.table (some o.table))
  | .isReleased e => do
    let h ← refOperand e
    let o ← act do Action.object (← Action.target h)
    return .ok (.flag o.released)
  | .destroyed => do return .ok (.destroyed (← world).destroyed.toList)
  | .cast c e target => do
    let k ← classOperand c
    let h ← refOperand e
    return ofHandle (← act (Action.cast target k h))

def string : StringOp → Eval Reply
  | .length e => do
    let s ← viewOperand .string e
    number do return (← Action.stringLength s).toInt
  | .charAt e i => do
    let s ← viewOperand .string e
    number do return (← Action.charAt s i).toNat
  | .concat e other => do
    let s ← viewOperand .string e
    let other ← viewOperand .string other
    allocated .string (Action.concat s other)
  | .text e => do
    let s ← viewOperand .string e
    return .ok (.text (← act (Action.printedText s)))
  | .equals e other => do
    let s ← viewOperand .string e
    let other ← refOperand other
    flag (Action.stringEquals s other)
  | .hash e => do
    let s ← viewOperand .string e
    number do return (← Action.stringText s).hash.toInt
  | .itself e => do
    match ← viewOperand .string e with
    | some id => return ofHandle (.object id .string)
    | none => return ofHandle (.typedNull .string)

def allClasses (w : World) : List ClassId := List.range w.classes.size

def classes : ClassOp → Eval Reply
  | .value c => do ofClass (← classOperand c)
  | .report c => do return .ok (.classReport (← act (Action.demand (← classOperand c))))
  | .define name superclass slots => do
    let parent ← classOperand superclass
    ofClass (some (← act (Action.defineClass name parent slots)))
  | .isInstance c e => do
    let k ← classOperand c
    let h ← refOperand e
    flag (Action.isInstance k h)
  | .isSubclassOf c other => do
    let k ← classOperand c
    let l ← classOperand other
    return .ok (.flag ((← world).isSubclassOf k l))
  | .bootstrap => do
    act Action.bootstrap
    return .ok (.number (← world).classes.size)
  | .all => do return .ok (.classes (allClasses (← world)))
  | .count => do return .ok (.number (← world).classes.size)
  | .has key => do return .ok (.flag ((← world).find? key).isSome)
  | .emptyTable key =>
    let blank : World := {}
    return .ok (.tableReport (allClasses blank) (blank.find? key).isSome)

def ownerOperand : Option ClassExpr → Eval Owner
  | none => return .absent
  | some c => do
    match ← classOperand c with
    | some id => return .known id
    | none => return .null

def table : TableOp → Eval Reply
  | .new owner parent destructor slots => do
    let owner ← ownerOperand owner
    let parent ← tableOperand parent
    return .ok (.table (some (.extend parent ⟨owner, destructor, slots⟩)))
  | .value e => do return .ok (.table (← tableOperand e))
  | .owner e => do
    let t ← someTable e
    ofClass (← act (Action.owner t))
  | .parent e => do return .ok (.table (← someTable e).parent?)
  | .count e => do return .ok (.number (← someTable e).slots.length)
  | .index e slot => do
    match (← someTable e).index? slot with
    | some i => return .ok (.number i)
    | none => return .ok (.number (-1))
  | .overrides e slot => do return .ok (.flag ((← someTable e).overrides slot))
  | .extendsLayout e other => do
    let t ← tableOperand e
    let other ← tableOperand other
    flag do return (← Action.demand t).extendsLayout (← Action.demand other)
  | .hasDestructor e => do return .ok (.flag (← someTable e).destructor?.isSome)
  | .destroy e operand => do
    let t ← someTable e
    let h ← refOperand operand
    nothing do
      let d ← Action.demand t.destructor?
      Action.runDestructor d h

def array : ArrayOp → Eval Reply
  | .newArray element c n => do
    let k ← classOperand c
    allocated .array (Action.newArray element k n)
  | .newGrid element c n m => do
    let k ← classOperand c
    allocated .grid (Action.newGrid element k n m)
  | .length e => do
    let id ← arrayOperand e
    number do return (← Action.cells id).length
  | .get e i => do
    let id ← arrayOperand e
    return .ok (.ofElement (← act (Action.arrayGet id i)))
  | .set e i value => do
    let id ← arrayOperand e
    let cells ← act (Action.cells id)
    let value ← storedElement cells.element value
    nothing (Action.arraySet id i value)
  | .elements e => do
    let id ← arrayOperand e
    return .ok (.elements (← act (Action.cells id)).storage)
  | .extent e => do
    let g ← act (Action.gridCells (← gridOperand e))
    return .ok (.extent g.rows g.columns)
  | .getAt e i j => do
    let id ← gridOperand e
    return .ok (.ofElement (← act (Action.gridGet id i j)))
  | .setAt e i j value => do
    let id ← gridOperand e
    let cells ← act (Action.gridCells id)
    let value ← storedElement cells.element value
    nothing (Action.gridSet id i j value)
  | .row e i => do
    let id ← gridOperand e
    act (Action.gridRow id i)
    return .ok (.row id i)
  | .rowLength name => do
    let (id, _) ← rowOperand name
    number do return (← Action.gridCells id).columns
  | .rowGet name j => do
    let (id, i) ← rowOperand name
    return .ok (.ofElement (← act (Action.gridGet id i j)))
  | .rowSet name j value => do
    let (id, i) ← rowOperand name
    let cells ← act (Action.gridCells id)
    let value ← storedElement cells.element value
    nothing (Action.gridSet id i j value)
  | .checkStore e value => do
    let h ← refOperand e
    let value ← refOperand value
    nothing (Action.checkStore h value)

def exceptionParts (id : Option ObjectId) : Action (Kind × Text) := do
  Action.demand ((← get).exception? (← Action.demand id))

def exception : ExceptionOp → Eval Reply
  | .new code message =>
    allocated .exception do Action.newException (← Action.kindOfCode code) message
  | .throw code message => nothing do Action.raise (← Action.kindOfCode code) message
  | .kindReport code => return .ok (.kindReport code)
  | .kindIsA code other => return .ok (.flag (KindCode.isA code other))
  | .sameKind code other => return .ok (.flag (code == other))
  | .kindOf e => do
    let id ← viewOperand .exception e
    number do return (← exceptionParts id).1.code.toNat
  | .message e => do
    let id ← viewOperand .exception e
    let (_, message) ← act (exceptionParts id)
    if message.isEmpty then return ofHandle (.typedNull .string)
    else allocated .string (Action.newString message)
  | .text e => do
    let id ← viewOperand .exception e
    let (k, message) ← act (exceptionParts id)
    return .ok (.text (exceptionText k message))
  | .isA e code => do
    let id ← viewOperand .exception e
    match code with
    | none => return .ok (.flag false)
    | some code => flag do return KindCode.isA (← exceptionParts id).1.code code
  | .find source => do
    match source with
    | .operand e =>
      match ← viewOperand .exception e with
      | some id => return .ok (.search (.object id .exception) true)
      | none => return .ok (.search (.typedNull .exception) true)
    | .kind _ | .nowhere => return .ok (.search (.typedNull .exception) false)

def ofConfig (result : Except LoadError (Option Config)) : Reply :=
  match result with
  | .ok c => .ok (.config c)
  | .error e => .error (.load e)

def replaceFiles (result : Except Failure FileSystem) : Eval Reply := do
  match result with
  | .ok files =>
    modify fun s => { s with files }
    return .ok .nothing
  | .error e => return .error e

def config : ConfigOp → Eval Reply
  | .setOptions allowZeroLength => nothing (Action.setOptions { allowZeroLength })
  | .options => do return .ok (.flag (← world).options.allowZeroLength)
  | .makeDirectory path => do
    replaceFiles (((← get).files.makeDirectory path).mapError (.cannotMake path))
  | .writeFile path content => do
    replaceFiles (((← get).files.writeWithParents path content).mapError (.cannotWrite path))
  | .fileContent path => do return .ok (.content ((← get).files.read path).toOption)
  | .default => return .ok (.config (some {}))
  | .parse content => do
    let path := Config.fileName
    let _ ← replaceFiles (((← get).files.write path content).mapError (.cannotWrite path))
    let fs := (← get).files
    return ofConfig ((← act (Action.loadConfigIn fs Path.dot)).map some)
  | .loadIn directory => do
    let fs := (← get).files
    return ofConfig ((← act (Action.loadConfigIn fs directory)).map some)
  | .load path => do
    let fs := (← get).files
    return ofConfig ((← act (Action.loadConfig fs path)).map some)
  | .find start => do
    let fs := (← get).files
    return ofConfig (← act (Action.findConfig fs start))
  | .choose path => do
    let fs := (← get).files
    return ofConfig ((← act (Action.chooseConfig fs path)).map some)
  | .optionsOf name => do return .ok (.flag (← configOperand name).options.allowZeroLength)
  | .apply name => do
    let c ← configOperand name
    act (Action.applyConfig c)
    return .ok (.flag (← world).options.allowZeroLength)

def snapshot : SnapshotOp → Eval Reply
  | .describe c => do
    let id ← classOperand c
    let k ← act do Action.classOf (← Action.demand id)
    return .ok (.descriptor (some ((← world).describe k)))
  | .capture => do return .ok (.snapshot (some (.capture (← world))))
  | .value e => do return .ok (.snapshot (← snapshotOperand e))
  | .encode e => do return .ok (.encoding (Snapshot.encode (← snapshotOperand e)))
  | .decode input =>
    match Snapshot.decode input with
    | .ok s => return .ok (.snapshot (some s))
    | .error e => return .error (.refused e)
  | .lookup e name dimensions => do
    let s ← act (Action.demand (← snapshotOperand e))
    return .ok (.descriptor (s.lookup name dimensions))

/-- Writes files, then makes a directory and enters it. -/
def stage (fs : FileSystem) (files : List (Text × Text)) (directory : Option Text) :
    Except Failure FileSystem := do
  let fs ← files.foldlM (fun fs (path, content) =>
    (fs.writeWithParents path content).mapError (Failure.cannotWrite path)) fs
  match directory with
  | none => return fs
  | some path =>
    let fs ← (fs.makeDirectory path).mapError (Failure.cannotMake path)
    let l ← (fs.resolve path).mapError (Failure.cannotMake path)
    return { fs with workingDirectory := l }

def command : CommandOp → Eval Reply
  | .run name output => do
    let fs := (← get).files
    match ← act (Action.runCommand fs name output) with
    | .error e => return .error (.command e)
    | .ok result =>
      modify fun s => { s with files := result.files }
      return .ok (.text result.output)
  | .program arguments files directory result => do
    let home := (← get).files.workingDirectory
    match stage (← get).files files directory with
    | .error e => return .error e
    | .ok fs =>
      let report := CommandLine.run fs arguments
      let file := result.map fun path => (report.files.read path).toOption
      modify fun s => { s with files := { report.files with workingDirectory := home } }
      return .ok (.report report file)

def perform : Op → Eval Reply
  | .object op => object op
  | .string op => string op
  | .classes op => classes op
  | .table op => table op
  | .array op => array op
  | .exception op => exception op
  | .config op => config op
  | .snapshot op => snapshot op
  | .command op => command op

end Eval

inductive Outcome where
  | reply (reply : Reply)
  | stopped (stop : Stop)

namespace Session

def bind (s : Session) (name : Option Name) (v : Value) : Session :=
  match name with
  | some name => { s with bindings := (name, v) :: s.bindings }
  | none => s

/-- Performs one operation. Its result is bound on success. -/
def performOp (s : Session) (op : Op) (result : Option Name) : Outcome × Session :=
  match (Eval.perform op).run s with
  | (.ok (.ok v), s) => (.reply (.ok v), s.bind result v)
  | (.ok (.error e), s) => (.reply (.error e), s)
  | (.error stop, s) => (.stopped stop, s)

def faultHandle (fault : Option ObjectId) : Handle :=
  match fault with
  | some id => .object id .exception
  | none => .typedNull .exception

def finishAttempt (s : Session) (done : List Reply) (fault : Option ObjectId)
    (result caught : Option Name) : Outcome × Session :=
  let v := Value.attempt done fault
  (.reply (.ok v), (s.bind caught (.handle (faultHandle fault))).bind result v)

mutual

/-- Runs a step inside an attempt: an exception is left to the attempt. -/
def runInner (s : Session) : Step → Outcome × Session
  | .perform op result _ => s.performOp op result
  | .attempt body result caught => s.runBody body [] result caught

/-- Runs the rest of an attempt, of which the replies so far are given. -/
def runBody (s : Session) (body : List Step) (done : List Reply)
    (result caught : Option Name) : Outcome × Session :=
  match body with
  | [] => s.finishAttempt done none result caught
  | step :: rest =>
    match s.runInner step with
    | (.reply r, s) => s.runBody rest (done ++ [r]) result caught
    | (.stopped (.fault (.thrown e)), s) => s.finishAttempt done (some e) result caught
    | (.stopped stop, s) => (.stopped stop, s)

end

/-- Runs a step. The exception of a step that ends with one is bound. -/
def run (s : Session) (step : Step) : Outcome × Session :=
  match step, s.runInner step with
  | .perform _ _ caught, (.stopped (.fault (.thrown e)), s) =>
    (.stopped (.fault (.thrown e)), s.bind caught (.handle (.object e .exception)))
  | _, result => result

def withVerbosity (s : Session) (verbosity : Int) : Session :=
  { s with world := { s.world with threshold := Severity.ofVerbosity verbosity } }

/-- Runs the steps of a script one after another, whatever each one ends with. -/
def runAll (s : Session) : List Step → List Outcome × Session
  | [] => ([], s)
  | step :: rest =>
    let (outcome, s) := s.run step
    let (outcomes, s) := s.runAll rest
    (outcome :: outcomes, s)

end Session

end ObjectModel.Script
