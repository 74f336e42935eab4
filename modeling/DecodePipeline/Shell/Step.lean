import DecodePipeline.Process.Program
import DecodePipeline.Shell.Builtin

/-!
What a process does next. Every step takes one task; words are expanded first, then descriptors are
redirected, and then the command itself is run, here or in a process of its own.
-/

namespace DecodePipeline.Shell

namespace Machine

/-! ## Descriptors -/

/-- What the shell says about a path that cannot be opened. -/
def openReason (writing : Bool) (e : SystemError) : String :=
  if e = .notFound then (if writing then "Directory nonexistent" else "No such file") else Tool.reason e

def openInput (m : Machine) (p : Process) (path : String) : Except SystemError (Machine × Handle) := do
  match ← m.tree.stat p.directory path with
  | .sink => return (m, .nothing)
  | .zeros => return (m, .zeros)
  | .stream d => return (m, (p.handles.get? d).getD .nothing)
  | .file content _ =>
    let (m, c) := m.newChannel content
    return (m, .inlet c)
  | _ => return (m, .nothing)

def openOutput (m : Machine) (p : Process) (append : Bool) (path : String) :
    Except SystemError (Machine × Handle) := do
  let (tree, l, node) ← m.tree.openForWriting p.directory path
  match node with
  | .stream d => return (m, (p.handles.get? d).getD .nothing)
  | .file _ _ => return ({ m with tree := if append then tree else tree.truncate l }, .file l)
  | _ => return (m, .nothing)

def redirectOne (m : Machine) (p : Process) (r : Redirection) : Except String (Machine × Process) := do
  let (shell, target) ← expandText p.shell r.target
  let p := { p with shell }
  let path := unmark target
  let opened (writing : Bool) (result : Except SystemError (Machine × Handle)) :
      Except String (Machine × Process) :=
    match result with
    | .ok (m, h) => .ok (m, { p with handles := p.handles.set r.descriptor h })
    | .error e =>
      .error ("cannot " ++ (if writing then "create " else "open ") ++ path ++ ": " ++ openReason writing e)
  match r.direction with
  | .read => opened false (m.openInput p path)
  | .write => opened true (m.openOutput p false path)
  | .append => opened true (m.openOutput p true path)
  | .document =>
    let (m, c) := m.newChannel (Text.encodeUtf8 path)
    return (m, { p with handles := p.handles.set r.descriptor (.inlet c) })
  | .duplicate =>
    if path = "-" then return (m, { p with handles := p.handles.close r.descriptor })
    else
      match (Decimal.read? path.toList).bind p.handles.get? with
      | some h => return (m, { p with handles := p.handles.set r.descriptor h })
      | none => throw (path ++ ": Bad file descriptor")

def redirect (m : Machine) (p : Process) (rs : List Redirection) : Except String (Machine × Process) :=
  rs.foldlM (fun (m, p) r => m.redirectOne p r) (m, p)

/-! ## Programs -/

/-- What a tool can read, or nothing while more may come. -/
def toolInput (m : Machine) (p : Process) : Option (Machine × List UInt8) :=
  match p.handles.get? 0 with
  | some (.inlet c) => if m.isOpen c then none else some (m.drain c)
  | some .zeros => some (m, List.replicate Tool.endless 0)
  | _ => some (m, [])

/-- Runs a tool inside the process. `label` stands in front of its complaints, and `closed` is what it says
when it cannot write. -/
def runTool (m : Machine) (p : Process) (words : List String) (label : String → String) (closed : String)
    (tool : Tool.Call → Tool.Result) : Machine :=
  let arguments := words.drop 1
  let reads := Tool.readsInput (words.headD "") arguments
  match if reads then m.toolInput p else some (m, []) with
  | none =>
    let channel := match p.handles.get? 0 with
      | some (.inlet c) => c
      | _ => 0
    m.put { p.push [.invoke words] with wait := .input channel false }
  | some (m, input) =>
    let r := tool { arguments, input, tree := m.tree, directory := p.directory }
    let m := r.errors.foldl (fun m e => m.complain p (label e)) { m with tree := r.tree }
    let m := if r.hint then m.complain p ("Try '" ++ words.headD "" ++ " --help' for more information.\n") else m
    let p := if r.delay = 0 then p else { p with wait := .time (m.clock + r.delay) }
    match m.write p 1 r.output with
    | some m => m.proceed p r.status
    | none => (m.complain p (label closed)).proceed p 1

/-- The shell and the tasks for the words behind `sh`. -/
def interpreter (t : FileTree) (cwd : Location) (words : List String) : State × List Task :=
  let flags := words.takeWhile fun w => w.toList.head? = some '-' && w ≠ "-"
  let letters := (flags.flatMap fun w => w.toList.drop 1)
  let base := Builtin.applyFlags true { name := "sh" } letters
  let rest := words.drop flags.length
  let tasks (text : String) : List Task := (readScript text).map Task.command
  if letters.contains 'c' then
    match rest with
    | [] => ({ base with line := 0 }, [.command (.malformed 0 "-c requires an argument")])
    | text :: more => ({ base with name := more.headD "sh", arguments := more.drop 1 }, tasks text)
  else
    match rest with
    | [] => (base, [])
    | path :: arguments =>
      match t.read cwd path with
      | .ok bytes => ({ base with name := path, arguments }, tasks (Text.decodeLossy bytes))
      | .error e => (base, [.command (.malformed 0 ("cannot open " ++ path ++ ": " ++ openReason false e))])

/-- What a program does as a process of its own. -/
def programTasks (t : FileTree) (cwd : Location) (program : Program) (words : List String) : State × List Task :=
  match program with
  | .script text =>
    ({ name := words.headD "", arguments := words.drop 1 }, (readScript text).map Task.command)
  | .tool "sh" => interpreter t cwd (words.drop 1)
  | .tool name => ({ name }, [.invoke (name :: words.drop 1)])

def runProgram (m : Machine) (p : Process) (inPlace : Bool) (words : List String) : Machine :=
  let name := words.headD ""
  let missing (code : Nat) (text : String) : Machine :=
    let text := (if inPlace then "exec: " else "") ++ name ++ ": " ++ text
    if inPlace then m.giveUp p code text else m.object p code text
  match Program.find m.tree p.directory name with
  | .error e => if e = .notFound ∨ e = .notDirectory then missing 127 "not found" else missing 126 (Tool.reason e)
  | .ok program =>
    let (shell, tasks) := programTasks m.tree p.directory program words
    let shell := { shell with traps := p.shell.traps.filter (·.2.isEmpty), id := m.nextId }
    match program, Tool.external? shell.name with
    | .tool _, some tool =>
      let p := if inPlace then { p with todo := [.finish] } else p
      m.runTool p (shell.name :: words.drop 1) (fun e => name ++ ": " ++ e ++ "\n")
        "write error: Bad file descriptor" tool
    | _, _ =>
      if inPlace then m.put { p with shell := { shell with id := p.id }, todo := tasks }
      else
        let (m, id) := m.fork p p.handles shell tasks
        m.put { p.push [.adopt id] with wait := .ends [id] }

/-- Runs a command that is no function, or tells where one is. -/
def runCommand (m : Machine) (p : Process) (words : List String) : Machine :=
  let answer (text : String) : Machine := ((m.write p 1 (Text.encodeUtf8 (text ++ "\n"))).getD m).proceed p 0
  match words with
  | "-v" :: name :: _ =>
    if (Tool.builtin? name).isSome ∨ (Builtin.run? m p name []).isSome ∨ p.shell.functions.any (·.1 = name) then
      answer name
    else if (Program.find m.tree p.directory name).isOk then
      answer (if name.toList.contains '/' then name else "/usr/bin/" ++ name)
    else m.proceed p 127
  | [] => m.proceed p 0
  | name :: arguments =>
    match Builtin.run? m p name arguments with
    | some m => m
    | none => m.runProgram p false words

/-- Runs a command by its name: a function, a command of the shell, or a program. -/
def invoke (m : Machine) (p : Process) (words : List String) : Machine :=
  match words with
  | [] => m.put p
  | name :: arguments =>
    match p.shell.functions.find? (·.1 = name) with
    | some (_, body) =>
      let shell := { p.shell with arguments }
      m.put ({ p with shell }.push [.command body, .leave p.shell.arguments])
    | none =>
      if name = "command" then m.runCommand p arguments
      else
      match Builtin.run? m p name arguments with
      | some m => m
      | none =>
        match Tool.builtin? name with
        | some tool => m.runTool p words (fun e => p.shell.complaint (name ++ ": " ++ e))
          (name ++ ": I/O error") tool
        | none => m.runProgram p false words

/-! ## Commands -/

/-- Commands of the shell whose redirections are not to fail. -/
def isSpecial (name : String) : Bool :=
  ["exec", "exit", "return", "break", "continue", "shift", "set", "export", "readonly", "unset", "trap", "eval",
    ".", ":"].contains name

/-- The task that gives descriptors back, if there is anything left to do with them. -/
def restoring (p : Process) (saved : Handles) : List Task := if p.todo.isEmpty then [] else [.restore saved]

def isGiven : Part → Bool
  | .given _ _ => true
  | _ => false

def expandAssignments (s : State) (as : List (String × Word)) : Except String (State × List (String × String)) :=
  as.foldlM (fun (s, found) (name, w) => do
    let (s, value) ← expandText s w
    return (s.set name (unmark value), found ++ [(name, unmark value)])) (s, [])

def simple (m : Machine) (p : Process) (assignments : List (String × Word)) (words : List Word)
    (redirections : List Redirection) : Machine :=
  let expanded : Except String (State × List String) := expandWords m.tree p.directory p.shell words
  match expanded with
  | .error text => m.giveUp p 2 text
  | .ok (shell, texts) =>
    let before := shell.bindings
    match expandAssignments shell assignments with
    | .error text => m.giveUp p 2 text
    | .ok (shell, values) =>
      let p := { p with shell }
      let saved := p.handles
      match m.redirect p redirections with
      | .error text =>
        if texts.head?.any isSpecial then m.giveUp p 2 text
        else (m.complainLine p text).put ((p.withStatus 2).push [.check])
      | .ok (m, p) =>
        match texts with
        | [] =>
          let hadOutput := assignments.any fun a => a.2.any isGiven
          let status := if hadOutput then p.shell.status else 0
          m.put (({ p with handles := saved }.withStatus status).push [.check])
        | ["exec"] => m.proceed p 0
        | "exec" :: program => m.runProgram p true program
        | name :: _ =>
          let resets :=
            if isSpecial name then []
            else values.map fun (name, _) => Task.reset name (before.get? name)
          let restores := if redirections.isEmpty then [] else restoring p saved
          m.put (p.push ([.invoke texts] ++ resets ++ restores ++ [.check]))

/-- Starts the stages of a pipeline, each reading what the one before it writes. -/
def startStages (m : Machine) (p : Process) (input : Option Handle) : List Command → Machine × List Nat
  | [] => (m, [])
  | c :: rest =>
    let handles := match input with
      | some h => p.handles.set 0 h
      | none => p.handles
    match rest with
    | [] =>
      let (m, id) := m.fork p handles p.shell.child [.command c]
      (m, [id])
    | _ =>
      let (m, channel) := m.newChannel []
      let (m, id) := m.fork p (handles.set 1 (.outlet channel)) p.shell.child [.command c]
      let (m, ids) := m.startStages p (some (.inlet channel)) rest
      (m, id :: ids)

def selectBranch (s : State) (subject : List Char) :
    List (List Word × List Command) → Except String (State × List Command)
  | [] => .ok (s, [])
  | (patterns, body) :: rest => do
    let (s, found) ← patterns.foldlM (fun (s, found) w => do
      let (s, field) ← expandText s w
      return (s, found || (pattern field).accepts subject)) (s, false)
    if found then return (s, body) else selectBranch s subject rest

def leniently (p : Process) (tasks : List Task) : Process :=
  { p with shell := { p.shell with lenient := p.shell.lenient + 1 } }.push (tasks ++ [Task.strict])

/-- Runs a command; one that waits for the output of another is put off until that is there. -/
def run (m : Machine) (p : Process) (c : Command) : Machine :=
  let commands (cs : List Command) : List Task := cs.map Task.command
  let p := match c with
    | .simple line .. | .redirected line .. => { p with shell := { p.shell with line } }
    | _ => p
  match c.hole? with
  | some (script, fill) =>
    let (m, channel) := m.newChannel []
    let (m, id) := m.fork p (p.handles.set 1 (.outlet channel)) p.shell.child (commands script)
    m.put { p.push [.collect channel id fill] with wait := .ends [id] }
  | none =>
    match c with
    | .simple _ assignments words redirections => m.simple p assignments words redirections
    | .redirected _ body redirections =>
      let saved := p.handles
      match m.redirect p redirections with
      | .error text => (m.complainLine p text).put ((p.withStatus 2).push [.check])
      | .ok (m, p) => m.put (p.push (.command body :: restoring p saved))
    | .group body => m.put ((p.withStatus p.shell.status).push (commands body))
    | .subshell body => m.forkAndWait p (commands body)
    | .pipeline stages =>
      let (m, ids) := m.startStages p none stages
      m.put { p.push (ids.map Task.adopt ++ [.check]) with wait := .ends ids }
    | .negated body => m.put (leniently (p.push [.negate]) [.command body])
    | .both first second => m.put (leniently (p.push [.andThen second]) [.command first])
    | .either first second => m.put (leniently (p.push [.orElse second]) [.command first])
    | .background body =>
      let (m, id) := m.fork p (p.handles.set 0 .nothing) p.shell.child [.command body]
      m.proceed { p with shell := { p.shell with job := some id } } 0
    | .choice test body otherwise => m.put (leniently (p.push [.choose body otherwise]) (commands test))
    | .repeated untilTrue test body => m.put (p.push [.loop untilTrue test body false])
    | .each name none body => m.put ((p.withStatus 0).push [.each name p.shell.arguments body])
    | .each name (some words) body =>
      match expandWords m.tree p.directory p.shell words with
      | .error text => m.giveUp p 2 text
      | .ok (shell, values) => m.put (({ p with shell }.withStatus 0).push [.each name values body])
    | .select subject branches =>
      match expandText p.shell subject with
      | .error text => m.giveUp p 2 text
      | .ok (shell, field) =>
        match selectBranch shell (field.map (·.1)) branches with
        | .error text => m.giveUp p 2 text
        | .ok (shell, body) => m.put (({ p with shell }.withStatus 0).push (commands body))
    | .define name body =>
      let functions := (name, body) :: p.shell.functions.filter (·.1 ≠ name)
      m.proceed { p with shell := { p.shell with functions } } 0
    | .malformed line text => m.giveUp { p with shell := { p.shell with line } } 2 text

/-- Text without line feeds at its end and without zeros. -/
def outputText (bytes : List UInt8) : String :=
  let kept := ((bytes.filter (· ≠ 0)).reverse.dropWhile (· = 10)).reverse
  Text.decodeLossy kept

/-- Does one thing; `p` has it taken off its list. -/
def perform (m : Machine) (p : Process) : Task → Machine
  | .command c => m.run p c
  | .invoke words => m.invoke p words
  | .andThen c => m.put (if p.shell.status = 0 then p.push [.command c] else p)
  | .orElse c => m.put (if p.shell.status = 0 then p else p.push [.command c])
  | .negate => m.proceed p (if p.shell.status = 0 then 1 else 0)
  | .choose body otherwise =>
    m.put ((p.withStatus 0).push ((if p.shell.status = 0 then body else otherwise).map Task.command))
  | .loop untilTrue test body entered =>
    let last := if entered then p.shell.status else 0
    m.put (leniently (p.push [.decide untilTrue test body last]) (test.map Task.command))
  | .decide untilTrue test body last =>
    if (p.shell.status == 0) != untilTrue then
      m.put (p.push (body.map Task.command ++ [Task.loop untilTrue test body true]))
    else m.proceed p last
  | .each _ [] _ => m.put p
  | .each name (value :: values) body =>
    m.put ({ p with shell := p.shell.set name value }.push (body.map Task.command ++ [Task.each name values body]))
  | .check =>
    if p.shell.failFast ∧ p.shell.lenient = 0 ∧ p.shell.status ≠ 0 then m.put (p.exit p.shell.status)
    else m.put p
  | .adopt id => m.proceed p (m.statusOf id)
  | .status n => m.proceed p n
  | .collect channel id fill =>
    let (m, bytes) := m.drain channel
    m.put ((p.withStatus (m.statusOf id)).push [.command (fill (outputText bytes))])
  | .finish =>
    match p.shell.traps.find? (·.1 = "EXIT") with
    | some (_, script) =>
      let shell := { p.shell with traps := p.shell.traps.filter (·.1 ≠ "EXIT") }
      let status := p.shell.status
      m.put { p with shell, todo := (readScript script).map Task.command ++ [.status status, .finish] }
    | none => m.finish p.id (.exited p.shell.status)
  | t => m.put (p.giveUp t)

/-! ## Time -/

def isReady (m : Machine) (p : Process) : Bool :=
  match p.wait with
  | .nothing => true
  | .time t => t ≤ m.clock
  | .ends ids => ids.all m.hasEnded
  | .input c line => !m.isOpen c || (line && (m.content c).any (·.contains 10))

/-- The next thing that the first ready process does. -/
def step (m : Machine) (p : Process) : Machine :=
  match p.todo with
  | [] => m.put { p with todo := [.finish], wait := .nothing }
  | t :: rest => m.perform { p with todo := rest, wait := .nothing } t

/-- When the next process that waits for a time goes on. -/
def nextTime? (m : Machine) : Option Nat :=
  (m.processes.filterMap fun p => match p.wait with
    | .time t => some t
    | _ => none).min?

/-- Runs until `stop` holds or the clock reaches `limit`, and then stands there. A process that takes
too many steps at one time counts as busy until then. -/
def runUntil (stop : Machine → Bool) (limit : Nat) : Nat → Machine → Machine
  | 0, m => { m with clock := limit }
  | budget + 1, m =>
    if stop m || limit ≤ m.clock then m
    else
      match m.processes.find? m.isReady with
      | some p => runUntil stop limit budget (m.step p)
      | none =>
        match m.nextTime? with
        | some t => if t < limit then runUntil stop limit budget { m with clock := t } else { m with clock := limit }
        | none => { m with clock := limit }

end Machine

end DecodePipeline.Shell
