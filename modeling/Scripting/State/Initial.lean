import Scripting.State.Lookup

/-!
The state in which an interpreter starts: its classes, and the names that are global from the start.
-/

namespace Scripting.State

/-- The classes that every interpreter has, in the order of their identifiers. -/
def initialClasses : Array Class :=
  #[{ name := "Object" },
    { name := "Exception", behavior := .exception },
    { name := "Global", base := some .object },
    { name := "Function", behavior := .function },
    { name := "ClassWrapper", behavior := .wrapper },
    { name := "String", behavior := .string },
    { name := "SyntaxError", behavior := .exception, base := some .exception },
    { name := "System" }]

/-- Sets a global name. -/
def defineGlobal (s : State) (name : String) (value : Value) : State :=
  (s.allocate s.global name value false).2

/-- Adds a virtual member that can be called only on instances of the class. -/
def defineMethod (s : State) (c : ClassId) (name : String) (callback : Callback) : State :=
  let (f, s) := s.newFunction (.native ⟨name, some c, callback⟩)
  s.bindMethod c name f

/-- Adds a member to one object, which cannot be overwritten. -/
def defineFunction (s : State) (o : ObjectId) (name : String) (callback : Callback) : State :=
  let (f, s) := s.newFunction (.native ⟨name, none, callback⟩)
  (s.allocate o name (.object f) true).2

def builtinMethods : List (ClassId × String × Builtin) :=
  [(.wrapper, "__construct", .construct),
    (.string, "length", .stringLength),
    (.string, "concat", .stringConcat),
    (.string, "substring", .stringSubstring),
    (.exception, "print", .exceptionPrint),
    (.system, "write", .systemWrite),
    (.system, "writeln", .systemWriteln),
    (.system, "dump", .systemDump),
    (.system, "backtrace", .systemBacktrace),
    (.system, "throws", .systemThrows)]

/-- Makes a class reachable by its name. -/
def defineClass (s : State) (c : ClassId) : State :=
  let (w, s) := s.newWrapper c
  s.defineGlobal (s.classInfo c).name (.object w)

/-- Adds the virtual members and the global names that every interpreter has. -/
def install (s : State) : State :=
  let s := builtinMethods.foldl
    (fun s (c, name, builtin) => s.defineMethod c name (.builtin builtin)) s
  let s := [ClassId.object, .exception, .syntaxError].foldl defineClass s
  let (w, s) := s.newWrapper .string
  let s := s.defineFunction w "from_codepoints" (.builtin .stringFromCodepoints)
  let s := s.defineGlobal "String" (.object w)
  let (sys, s) := s.addObject { classId := some .system }
  let s := s.defineGlobal "sys" (.object sys)
  let s := s.defineFunction s.global "include" (.builtin .includeFile)
  let s := s.defineFunction s.global "to_int" (.builtin .toInt)
  s.defineFunction s.global "to_bool" (.builtin .toBool)

def globalFrameName : String := "<global scope>"

/-- An interpreter whose global object and global `this` are given, before anything is installed. A
marker is a member that the host sets to `1` on an object of its own, which then has no class. -/
def bare (globalMarker thisMarker : Option String) (files : Files) : State :=
  let s : State := { classes := initialClasses, files }
  let (global, s) := s.addObject
    { classId := if globalMarker.isSome then none else some .global }
  let (this, s) := s.addObject {}
  let s := { s with
    global := global
    globalThis := this
    frames := [⟨globalFrameName, this, global⟩] }
  let s := match globalMarker with
    | some name => (s.allocate global name (.int 1) false).2
    | none => s
  match thisMarker with
  | some name => (s.allocate this name (.int 1) false).2
  | none => s

/-- The state of a new interpreter. -/
def initial (files : Files) : State :=
  (bare none none files).install

end Scripting.State
