import FirmwareBuild.Posix.Program.Environment
import FirmwareBuild.Posix.Shell.Call

/-! # Running shell scripts

Words are expanded and commands are run by functions that call each other: a word
can hold a script whose output it takes, and a script is made of words. Loops,
function calls and programs that start programs need not end, so every step takes
one from its fuel, and a shell without fuel is `Stop.stuck`. -/

namespace FirmwareBuild.Posix.Act

/-- What a parameter stands for. All arguments together are one text where they are not to be cut
into fields, or in quotes if the star names them. -/
def heldBy? (s : Shell) (expansion : Expansion) (name : Text) : Option Held :=
  if name = ['@'] ∨ name = ['*'] then
    if expansion.splits && (!expansion.quoted || name == ['@']) then
      some { texts := s.args, isEach := true }
    else some { texts := [Text.join (s.separators.take 1) s.args] }
  else (s.parameter? name).map fun value => { texts := [value] }

def isMissing (orEmpty : Bool) : Option Held → Bool
  | none => true
  | some held => orEmpty && held.joined.isEmpty

def requireSet (name : Text) : Act Unit := do
  if (← get).has .noUnset then giveUp (.unset name false)

/-- Ends the script after a failure that nothing looks at, if the shell was told to. -/
def checkFailure : Act Unit := do
  let s ← get
  if s.has .exitOnError && !s.watched && s.status != 0 then throw .exit

/-- What becomes of a turn of a loop: whether the loop goes on. -/
def goesOn : Option Stop → Act Bool
  | none => return true
  | some (.nextTurn loops) =>
    if loops ≤ 1 then return true else throw (.nextTurn (loops - 1))
  | some (.leaveLoop loops) =>
    if loops ≤ 1 then return false else throw (.leaveLoop (loops - 1))
  | some stop => throw stop

def goOnStopping : Option Stop → Act Unit
  | none => return ()
  | some stop => throw stop

/-- Puts things back after something has stopped, if the shell goes on. -/
def putBackAfter (stop : Option Stop) (kept : List Kept) : Act Unit := modify fun s =>
  if stop.any Stop.isEnd then { s with abandoned := s.abandoned ++ kept }
  else kept.foldl Shell.putBack s

/-- Leaves loops, or goes on with their next turn. Where there is no loop, nothing happens. -/
def leaveLoops (stop : Nat → Stop) (args : List Text) : Act Nat := do
  let n ← firstNumber args 1
  if n = 0 then giveUp (.noNumber (args.headD []))
  let s ← get
  if s.loops = 0 then return 0
  finish 0
  throw (stop (min n s.loops))

def startJob (body : Script) : Act Unit := modify fun s =>
  let started := s.forked
  let inBackground := started.openStream 0 (.device .null)
  let job : Job :=
    { pid := started.pid, process := inBackground.toProcess, cwd := s.disk.cwd, body }
  { s with
    channels := inBackground.channels, lastPid := started.lastPid, jobs := s.jobs ++ [job]
    latestJob := some job.pid, status := 0 }

def scriptPath (name : Text) : Act Text := do
  if name.contains '/' then return name
  let s ← get
  let candidates := (Text.split 0x3A s.searchPath).map fun directory =>
    if directory.isEmpty then name else ofOctets directory ++ '/' :: name
  match candidates.find? fun path => (s.disk.node? (toOctets path)).any Node.isFile with
  | some path => return path
  | none => giveUp (.unknown name)

/-- What a shell reads of a script. Zero octets are passed over. -/
def readable (text : Text) : Text := text.filter (· != '\x00')

/-- All that is left of the input, as a script. -/
def takeInput : Act Text := do
  let s ← get
  unless (s.channel? 0).all fun entry => entry.2.isWhole do throw .starved
  let text := s.input.toOption.getD []
  set (s.skipInput text.length)
  return readable text

/-- The text of a script. A directory counts as empty. -/
def scriptText (path : Text) : Act Text := do
  if streamAt? path = some 0 then takeInput
  else match (← get).disk.read (toOctets path) with
    | .ok data => return readable (ofOctets data)
    | .error .isADirectory => return []
    | .error cause => giveUp (.cannotOpen path cause)

def refusedStatus (cause : IoError) : Nat :=
  if [IoError.notFound, .notADirectory, .nameTooLong, .tooManyLinks].contains cause then 127
  else 126

/-- What runs for the first of some files that a shell can run. -/
def loadFor (s : Shell) (files : List Bytes) (argv : List Text) : Except IoError Loaded :=
  loadFirst s.disk (environmentTexts s.environment) argv .notFound files

def napOf (loaded : Loaded) : Time :=
  let naps := loaded.argv.tail.map Program.napLength?
  if loaded.name == sleepName && naps.all Option.isSome then
    (naps.map fun nap => nap.getD 0).foldl (· + ·) 0
  else 0

/-- The room in a pipe before someone has to read. -/
def pipeRoom : Nat := 65536

/-- More room than any pipe gets before its commands count as ones that do not end. -/
def endlessRoom : Nat := 0x4000000

mutual

def expand : Nat → Expansion → Word → Act (List Piece)
  | 0, _, _ => throw .stuck
  | _, _, [] => return []
  | fuel + 1, expansion, part :: rest => do
    let pieces ← expandPart fuel expansion part
    return pieces ++ (← expand fuel expansion rest)

def expandPart : Nat → Expansion → Part → Act (List Piece)
  | 0, _, _ => throw .stuck
  | fuel + 1, expansion, part => do
    match part with
    | .plain text =>
      return [if expansion.quoted then .quoted text
        else if expansion.inner then .expanded [text] else .written text]
    | .quoted text => return [.quoted text]
    | .doubleQuoted [.parameter ['@'] .value []] =>
      expandPart fuel { expansion with quoted := true } (.parameter ['@'] .value [])
    | .doubleQuoted parts =>
      return .quoted [] :: (← expand fuel { expansion with quoted := true } parts)
    | .arithmetic expression =>
      let text := textOfPieces (← expand fuel { quoted := true } expression)
      let s ← get
      match ((Formula.ofText text).eval (fun name => (s.valueOf? name).getD []) false).run [] with
      | .ok (n, changes) =>
        for (name, value) in changes.reverse do assign name (Numeral.digits value)
        return expansion.pieces (Numeral.digits n)
      | .error mistake => giveUp (.arithmetic text mistake)
    | .output (.sequence []) => return expansion.pieces []
    | .output body =>
      let (text, status) ← capture do
        modify fun s => { s with watched := false }
        conclude fuel (run fuel body)
      modify fun s => { s with answered := some status }
      return expansion.pieces (Text.dropEnd (· == '\n') (text.filter (· != '\x00')))
    | .parameter name use word =>
      let held? := heldBy? (← get) expansion name
      let pieces := (held?.map fun held => held.pieces expansion).getD []
      match use with
      | .value =>
        if held?.isNone then requireSet name
        return pieces
      | .length =>
        if held?.isNone then requireSet name
        return expansion.pieces (Text.ofNat ((held?.map Held.joined).getD []).length)
      | .default orEmpty =>
        if isMissing orEmpty held? then expandInner fuel expansion word else return pieces
      | .alternative orEmpty =>
        if isMissing orEmpty held? then return [] else expandInner fuel expansion word
      | .assign orEmpty =>
        if isMissing orEmpty held? then
          let text := textOfPieces (← expandInner fuel { expansion with splits := false } word)
          assign name text
          return expansion.pieces text
        else return pieces
      | .require orEmpty =>
        if isMissing orEmpty held? then
          let text := textOfPieces (← expandInner fuel { expansion with splits := false } word)
          giveUp (if word.isEmpty then .unset name orEmpty else .required name text)
        else return pieces
      | .dropStart longest => dropPart fuel expansion name held? false longest word
      | .dropEnd longest => dropPart fuel expansion name held? true longest word
      | .unknown => giveUp .badSubstitution

def expandInner : Nat → Expansion → Word → Act (List Piece)
  | 0, _, _ => throw .stuck
  | fuel + 1, expansion, word => do
    let s ← get
    let word := if expansion.quoted then word else word.withHomes s.home? expansion.assigned true
    expand fuel { expansion with inner := true } word

/-- The pieces of what a parameter stands for without a part that has the form of a pattern. -/
def dropPart : Nat → Expansion → (name : Text) → Option Held → (atEnd longest : Bool) → Word →
    Act (List Piece)
  | 0, _, _, _, _, _, _ => throw .stuck
  | fuel + 1, expansion, name, held?, atEnd, longest, word => do
    match held? with
    | none => requireSet name; return []
    | some held =>
      let pattern ← patternOf fuel word
      let drop := if atEnd then dropEnd longest pattern else dropStart longest pattern
      return (held.change drop).pieces expansion

/-- The text that a word is expanded to where it is not cut into fields. -/
def textOf : Nat → (assigned : Bool) → Word → Act Text
  | 0, _, _ => throw .stuck
  | fuel + 1, assigned, word => do
    let word := word.withHomes (← get).home? assigned true
    return textOfPieces (← expand fuel { assigned } word)

def patternOf : Nat → Word → Act (List PatternChar)
  | 0, _ => throw .stuck
  | fuel + 1, word => do
    return patternOfPieces (← expand fuel {} (word.withHomes (← get).home? false true))

/-- The fields that words are expanded to, behind those that there are already. An argument of a
command that declares variables may be an assignment, which is one field. -/
def fieldsOfWords : Nat → (done : List Text) → List Word → Act (List Text)
  | 0, _, _ => throw .stuck
  | _, done, [] => return done
  | fuel + 1, done, word :: rest => do
    let s ← get
    match if declares s done then Reading.assignment? word else none with
    | some (name, value) =>
      let field := name ++ '=' :: (← textOf fuel true value)
      fieldsOfWords fuel (done ++ [field]) rest
    | none =>
      let pieces ← expand fuel { splits := true } (word.withHomes s.home? false true)
      let s ← get
      let fields := (fieldsOf s.separators pieces).flatMap fun field =>
        if s.has .noPatterns then [fieldText field] else fileNames s.disk field
      fieldsOfWords fuel (done ++ fields) rest

def openings : Nat → List Redirect → Act (List Opening)
  | 0, _ => throw .stuck
  | _, [] => return []
  | fuel + 1, redirect :: rest => do
    let opening ← do
      match redirect with
      | .file stream mode target => pure (.file stream mode (← textOf fuel false target))
      | .copy stream source =>
        match ← textOf fuel false source with
        | ['-'] => pure (.copy stream none)
        | [c] =>
          if c.isDigit then pure (.copy stream (some (c.toNat - '0'.toNat))) else giveUp .noStream
        | _ => giveUp .noStream
      | .document stream number =>
        pure (.document stream (((← get).documents.lookup number).getD []))
    return opening :: (← openings fuel rest)

def openAll : Nat → List Opening → Act Unit
  | 0, _ => throw .stuck
  | _, [] => return ()
  | fuel + 1, opening :: rest => do
    match opening with
    | .file stream mode path => openStreamTo stream mode path
    | .copy stream none => modify fun s => s.setStream stream none
    | .copy stream (some source) => copyStream stream source
    | .document stream word =>
      let text := textOfPieces (← expand fuel { quoted := true } word)
      modify fun s => s.openStream stream (.text text true)
    openAll fuel rest

/-- Carries out redirections, and says whether that worked. -/
def openSafely : Nat → List Opening → Act Bool
  | 0, _ => throw .stuck
  | fuel + 1, list => do
    match ← attempt (openAll fuel list) with
    | none => return true
    | some .mistake => return false
    | some stop => throw stop

def run : Nat → Script → Act Unit
  | 0, _ => throw .stuck
  | fuel + 1, script => do
    if (← get).has .readOnlyScript then return
    match script with
    | .simple line assignments words redirects =>
      modify fun s => { s with line, answered := none }
      simple fuel assignments words redirects
      checkFailure
      noticeSignals fuel
    | .pipeline stages =>
      runStages fuel pipeRoom 0 none stages
      checkFailure
      noticeSignals fuel
    | .negate command =>
      watching (run fuel command)
      finish (if (← get).status = 0 then 1 else 0)
    | .both first second =>
      watching (run fuel first)
      if (← get).status = 0 then run fuel second
    | .either first second =>
      watching (run fuel first)
      if (← get).status ≠ 0 then run fuel second
    | .sequence commands => runAll fuel commands
    | .subshell line body redirects =>
      modify fun s => { s with line }
      let opened ← openings fuel redirects
      asChild (conclude fuel (do openAll fuel opened; run fuel body))
      checkFailure
      noticeSignals fuel
    | .background body => startJob body
    | .branch condition body otherwise =>
      watching (run fuel condition)
      if (← get).status = 0 then run fuel body
      else match otherwise with
        | .sequence [] => finish 0
        | otherwise => run fuel otherwise
    | .loop untilSuccess condition body => runLoop fuel untilSuccess condition body 0
    | .each line name words body =>
      modify fun s => { s with line }
      let values ← fieldsOfWords fuel [] words
      if values.isEmpty then finish 0 else runEach fuel name values body
    | .choose line subject arms =>
      modify fun s => { s with line }
      let text ← textOf fuel false subject
      runChoice fuel text arms
    | .define name body =>
      modify fun s =>
        { s with functions := (name, body) :: s.functions.filter fun f => f.1 ≠ name, status := 0 }
    | .redirected line body redirects =>
      modify fun s => { s with line }
      let opened ← openings fuel redirects
      restoring (fun s t => { t with streams := s.streams }) do
        if ← openSafely fuel opened then run fuel body
        else
          finish 2
          checkFailure

def runAll : Nat → List Script → Act Unit
  | 0, _ => throw .stuck
  | _, [] => return ()
  | fuel + 1, command :: rest => do
    run fuel command
    runAll fuel rest

/-- Runs commands that each read what the one before wrote. The first one reads from a channel that
is given, or the input of the shell. What the first one writes goes to a pipe with so much room that
bears so many naps; where that is not enough for the others, all of them run again. -/
def runStages : Nat → (room naps : Nat) → Option Channel → List Script → Act Unit
  | 0, _, _, _, _ => throw .stuck
  | _, _, _, _, [] => return ()
  | fuel + 1, room, naps, input?, stage :: rest => do
    let act := do
      if let some input := input? then modify fun s => s.openStream 0 input
      conclude fuel (run fuel stage)
    if rest.isEmpty then asChild act
    else if room ≥ endlessRoom then throw .stuck
    else fun s =>
      match collect (fun level => .pipe level room naps) act s with
      | .error stop t => .error stop t
      | .ok (text, isBroken) t =>
        match runStages fuel pipeRoom 0 (some (.text text !isBroken)) rest t with
        -- what comes out of a broken pipe is only the start, so the next stage may lack the rest
        | .error .starved left =>
          if !isBroken then .error .starved left
          else if text.length ≥ room then
            runStages fuel (4 * room) naps input? (stage :: rest) s
          else runStages fuel room (2 * naps + 1) input? (stage :: rest) s
        | result => result

def runTurn : Nat → Act Unit → Act Bool
  | 0, _ => throw .stuck
  | _ + 1, act => do
    let turn := restoring (fun s t => { t with loops := s.loops }) do
      modify fun s => { s with loops := s.loops + 1 }
      act
    goesOn (← attempt turn)

/-- Runs a loop with a condition. The status is that of the last turn. -/
def runLoop : Nat → (untilSuccess : Bool) → (condition body : Script) → (last : Nat) →
    Act Unit
  | 0, _, _, _, _ => throw .stuck
  | fuel + 1, untilSuccess, condition, body, last => do
    match ← attempt (restoring (fun s t => { t with loops := s.loops }) do
        modify fun s => { s with loops := s.loops + 1 }
        watching (run fuel condition)) with
    | none =>
      if ((← get).status == 0) == untilSuccess then finish last
      else if ← runTurn fuel (run fuel body) then
        runLoop fuel untilSuccess condition body (← get).status
    | stop =>
      let isReturn := stop == some .leaveFunction
      unless isReturn do finish last
      if ← goesOn stop then runLoop fuel untilSuccess condition body last

def runEach : Nat → (name : Text) → List Text → (body : Script) → Act Unit
  | 0, _, _, _ => throw .stuck
  | _, _, [], _ => return ()
  | fuel + 1, name, value :: rest, body => do
    assign name value
    if ← runTurn fuel (run fuel body) then runEach fuel name rest body

/-- Runs the command of the first pattern that a text matches. -/
def runChoice : Nat → Text → List (List Word × Script) → Act Unit
  | 0, _, _ => throw .stuck
  | _, _, [] => finish 0
  | fuel + 1, text, (patterns, body) :: rest => do
    if ← matchesAny fuel text patterns then
      match body with
      | .sequence [] => finish 0
      | body => run fuel body
    else runChoice fuel text rest

def matchesAny : Nat → Text → List Word → Act Bool
  | 0, _, _ => throw .stuck
  | _, _, [] => return false
  | fuel + 1, text, word :: rest => do
    if matchPattern (← patternOf fuel word) text then return true
    else matchesAny fuel text rest

/-- Sets variables as assignments tell, and lets programs get them if that is asked for. What they
are set to is given. -/
def assignAll : Nat → (isExported : Bool) → List (Text × Word) → Act (List (Text × Text))
  | 0, _, _ => throw .stuck
  | _, _, [] => return []
  | fuel + 1, isExported, (name, word) :: rest => do
    let value ← textOf fuel true word
    assign name value
    if isExported then modify fun s => s.exportVariable name
    return (name, value) :: (← assignAll fuel isExported rest)

/-- Sets variables for one command as assignments tell, and puts them back. What they are set to is
given to the command. -/
def assigning : Nat → List (Text × Word) → (set : List (Text × Text)) →
    (List (Text × Text) → Act Unit) → Act Unit
  | 0, _, _, _ => throw .stuck
  | _, [], set, act => act set
  | fuel + 1, (name, word) :: rest, set, act => do
    let value ← textOf fuel true word
    let saved ← assignForNow name (some value) true
    let stop ← attempt (assigning fuel rest (set ++ [(name, value)]) act)
    putBackAfter stop [saved]
    goOnStopping stop

/-- Shows a command before it is called, if the shell was told to. -/
def trace : Nat → (streams : List (Nat × Nat)) → List (Text × Text) → List Text → Act Unit
  | 0, _, _, _ => throw .stuck
  | fuel + 1, streams, set, fields => do
    let s ← get
    if s.has .trace then
      let sign ← match Source.document ((s.valueOf? "PS4".toList).getD []) with
        | some word => textOfPieces <$> expand fuel { quoted := true } word
        | none => pure []
      let shown := set.map (fun (name, value) => name ++ '=' :: value) ++ fields
      restoring (fun s t => { t with streams := s.streams }) do
        modify fun s => { s with streams }
        mutter (sign ++ Text.join [' '] shown ++ ['\n'])

/-- Runs a simple command. Assignments in front of a program or function last as long as it; alone
they stay. -/
def simple : Nat → List (Text × Word) → List Word → List Redirect → Act Unit
  | 0, _, _, _ => throw .stuck
  | fuel + 1, assignments, words, redirects => do
    let fields ← fieldsOfWords fuel [] words
    let callee := Call.ofFields (← get) (fields.length + 1) false false fields
    let opened ← openings fuel redirects
    let streams := (← get).streams
    let keepsStreams := callee.isReplacement
    restoring (fun s t => if keepsStreams then t else { t with streams := s.streams }) do
      if ← openSafely fuel opened then
        if callee.keepsAssignments then
          let set ← assignAll fuel callee.isReplacement assignments
          trace fuel streams set fields
          call fuel callee
        else assigning fuel assignments [] fun set => do
          trace fuel streams set fields
          call fuel callee
      else
        finish 2
        if callee.isSpecial then throw .mistake

def call : Nat → Call → Act Unit
  | 0, _ => throw .stuck
  | fuel + 1, callee => do
    match callee.callee with
    | .nothing => finish ((← get).answered.getD 0)
    | .function body => callFunction fuel body callee.args
    | .builtin _ =>
      let s ← get
      set { s with command := callee.name, lostOutput := false, abandoned := [] }
      let stop ← attempt do
        let status ← callBuiltin fuel callee.isStandard callee.name callee.args
        finish status
        if (← get).lostOutput then
          complain (.lostOutput callee.name)
          finish (status ||| 1)
      modify fun t => { t with command := s.command, lostOutput := s.lostOutput }
      -- the mistake ends this command only, and what it was about to put back is put back now
      if stop = some .mistake ∧ !callee.isSpecial then
        modify fun t => { t.abandoned.foldl Shell.putBack t with abandoned := s.abandoned }
      else
        modify fun t => { t with abandoned := s.abandoned ++ t.abandoned }
        goOnStopping stop
    | .program => spawn fuel callee.isStandard (callee.name :: callee.args)

def callFunction : Nat → (body : Script) → List Text → Act Unit
  | 0, _, _ => throw .stuck
  | fuel + 1, body, args => do
    let s ← get
    let depth := s.depth + 1
    set { s with depth }
    if depth > deepest then giveUp .tooDeep
    modify fun s => { s with args, loops := 0, locals := some [], cursor := {} }
    let stop ← attempt (run fuel body)
    let kept := ((← get).locals).getD []
    modify fun t =>
      { t with
        depth := t.depth - 1, args := s.args, loops := s.loops, locals := s.locals
        cursor := s.cursor }
    putBackAfter stop kept
    unless stop = some .leaveFunction do goOnStopping stop

def callBuiltin : Nat → (standard : Bool) → (name : Text) → List Text → Act Nat
  | 0, _, _, _ => throw .stuck
  | fuel + 1, standard, name, args => do
    match builtins.lookup name with
    | some builtin => builtin args
    | none =>
      match String.ofList name with
      | "exit" =>
        let s ← get
        finish (← firstNumber args (s.trapStatus.getD s.status))
        throw .exit
      | "return" =>
        finish (← firstNumber args (← get).status)
        throw .leaveFunction
      | "break" => leaveLoops .leaveLoop args
      | "continue" => leaveLoops .nextTurn args
      | "eval" =>
        runText fuel (Text.join [' '] args)
        return (← get).status
      | "." =>
        let (_, args) ← options "" args
        match args with
        | [] => return 0
        | name :: _ => runFile fuel (← scriptPath name)
      | "exec" =>
        if args.isEmpty then return 0
        replaceShell fuel standard args
        return 0
      | "wait" =>
        let (_, args) ← options "" args
        runJobs fuel
        if args.isEmpty then return 0 else waitFor args 127
      | _ =>
        let (letters, rest) ← options "pvV" args
        let standard := standard || letters.contains 'p'
        match rest with
        | [] => return 0
        | name :: _ =>
          if letters.contains 'V' then describe standard name else showCommand standard name
where
  waitFor : List Text → Nat → Act Nat
    | [], status => return status
    | arg :: rest, status => do
      let s ← get
      let job? ← match arg with
        | '%' :: _ => some <$> jobOf arg
        | digits =>
          let pid ← numberOf digits
          pure (s.jobs.find? fun job => job.pid = pid && job.isOwn)
      waitFor rest ((job?.map fun job => job.status.getD 0).getD status)

def runText : Nat → Text → Act Unit
  | 0, _ => throw .stuck
  | fuel + 1, text => runLines fuel { rest := text } false

/-- Runs what is left of a script line by line. A script without commands succeeds. -/
def runLines : Nat → Source → (ran : Bool) → Act Unit
  | 0, _, _ => throw .stuck
  | fuel + 1, source, ran => do
    let s ← get
    let source := { source with aliases := s.aliases, nextDocument := s.nextDocument }
    match source.nextLine with
    | .error (line, mistake) =>
      set { s with line }
      giveUp (.script mistake)
    | .ok (none, _) => unless ran do finish 0
    | .ok (some commands, rest) =>
      set { s with
        documents := rest.documents ++ s.documents, nextDocument := rest.nextDocument }
      runAll fuel commands
      runLines fuel rest (ran || !commands.isEmpty)

def runFile : Nat → Text → Act Nat
  | 0, _ => throw .stuck
  | fuel + 1, path => do
    let text ← scriptText path
    let stop ← attempt <| restoring (fun s t => { t with watched := s.watched }) do
      modify fun s => { s with command := path, watched := false }
      runText fuel text
    unless stop = some .leaveFunction do goOnStopping stop
    return (← get).status

def spawn : Nat → (standard : Bool) → (argv : List Text) → Act Unit
  | 0, _, _ => throw .stuck
  | fuel + 1, standard, argv => do
    let name := argv.headD []
    let found ← findProgram standard name
    if let .error cause := found then
      complain (.program name cause)
      finish 127
      return ()
    match loadFor (← get) (found.toOption.getD []) argv with
    | .ok loaded =>
      let nap := napOf loaded
      -- jobs go on while a program lets time pass
      if nap > 0 then
        runJobs fuel
        modify fun s =>
          { s with
            channels := s.channels.map Channel.afterNap
            disk := { s.disk with now := s.disk.now + nap } }
      modify fun s => { s with deadlySignal := none }
      let env := (← get).environment
      asChild (runLoaded fuel loaded env)
      if let some signal := (← get).deadlySignal then
        if let some report := Signal.report? signal then mutter (report ++ ['\n'])
        modify fun s => { s with deadlySignal := none }
    | .error cause =>
      complain (.program name cause)
      finish (refusedStatus cause)

def replaceShell : Nat → (standard : Bool) → (argv : List Text) → Act Unit
  | 0, _, _ => throw .stuck
  | fuel + 1, standard, argv => do
    let s ← get
    match loadFor s (filesOf s standard (argv.headD [])) argv with
    | .ok loaded =>
      -- what was to be done at signals goes with the shell, but ignored signals stay ignored
      set { s with traps := s.traps.filter fun trap => trap.2.isEmpty }
      runLoaded fuel loaded s.environment
      throw .ended
    | .error cause =>
      complain (.program (argv.headD []) cause)
      finish (refusedStatus cause)
      throw .exit

/-- Runs a native program, which may be the shell, in a process that is there for it. -/
def runLoaded : Nat → Loaded → (env : List (Text × Text)) → Act Unit
  | 0, _, _ => throw .stuck
  | fuel + 1, loaded, env => do
    if loaded.name = shellName then runShell fuel loaded.argv env
    else if loaded.name = envName then runEnv fuel loaded env
    else match Program.installed.lookup loaded.name with
      | some program =>
        let _ ← runTool loaded program env
      | none => finish 126

/-- Runs the program that starts another one in a changed environment. -/
def runEnv : Nat → Loaded → (env : List (Text × Text)) → Act Unit
  | 0, _, _ => throw .stuck
  | fuel + 1, loaded, env => do
    if let some (argv, env) := ← runTool loaded Program.changeEnvironment env then
      let searchPath := (env.lookup "PATH".toList).map toOctets
      match load (← get).disk (environmentTexts env) searchPath true argv with
      | .ok next => runLoaded fuel next env
      | .error cause =>
        let _ ← runTool loaded (Program.refuseCommand (argv.headD []) cause) env

/-- Runs the shell with its arguments: a text, the file of a script, or its input. -/
def runShell : Nat → (argv : List Text) → (env : List (Text × Text)) → Act Unit
  | 0, _, _ => throw .stuck
  | fuel + 1, argv, env => do
    let directory? := startingDirectory? (← get).disk (env.lookup "PWD".toList)
    modify fun s => s.started (argv.headD []) (directory?.getD []) env
    if directory?.isNone then complain .noDirectory
    conclude fuel do
      let args := argv.tail
      let (hasScript, operands?) ← readSettings true (stepsFor args) true [] args false
      let operands := operands?.getD []
      let readsInput := (← get).has .fromInput
      if hasScript then
        let text :: rest := operands | giveUp .noCommandText
        modify fun s => { s with name := rest.headD s.name, args := rest.tail }
        runText fuel text
        if readsInput then runText fuel (← takeInput)
      else if readsInput || operands.isEmpty then
        switch .fromInput true
        modify fun s => { s with args := operands }
        runText fuel (← takeInput)
      else
        let path := operands.headD []
        let text ← scriptText path
        modify fun s => { s with name := path, args := operands.tail }
        runText fuel text

/-- Does what a process is there for and ends the process. -/
def conclude : Nat → Act Unit → Act Unit
  | 0, _ => throw .stuck
  | fuel + 1, act => do
    let stop ← attempt act
    unless stop = some .ended do runExitTrap fuel
    runJobs fuel

/-- Does what is to be done when the shell ends. The status stays, unless the trap ends the shell
itself. -/
def runExitTrap : Nat → Act Unit
  | 0 => throw .stuck
  | fuel + 1 => do
    let s ← get
    match s.traps.lookup 0 with
    | none => return ()
    | some action =>
      setTrap 0 none
      modify fun s => { s with trapStatus := some s.status, watched := false }
      match ← attempt (runText fuel action) with
      | some .exit | some .mistake | some .ended => return ()
      | _ => finish s.status

def noticeSignals : Nat → Act Unit
  | 0 => throw .stuck
  | fuel + 1 => do
    unless (← get).signals.isEmpty do
      noticeDeath
      let s ← get
      let mine := s.signals.filter fun entry => entry.1 = s.pid
      set { s with signals := s.signals.filter fun entry => entry.1 ≠ s.pid }
      for (signal, action) in trapsInOrder s do
        if mine.any fun entry => entry.2 = signal then
          let stop ← attempt <| restoring (fun s t =>
            { t with trapStatus := s.trapStatus, watched := s.watched }) do
            modify fun s => { s with trapStatus := some s.status, watched := false }
            runText fuel action
          if stop.isNone then finish s.status
          goOnStopping stop

def runJobs : Nat → Act Unit
  | 0 => throw .stuck
  | fuel + 1 => do
    match (← get).jobs.find? fun job => job.status.isNone with
    | none => return ()
    | some job =>
      let keep (status : Nat) : Act Unit := modify fun s =>
        { s with jobs := s.jobs.map fun other : Job =>
            if other.pid = job.pid then { other with status := some status } else other }
      keep 0
      let status := (← get).status
      asChild do
        modify fun s =>
          { s with
            toProcess := { job.process with pid := job.pid }, jobs := []
            disk := { s.disk with cwd := job.cwd } }
        conclude fuel (run fuel job.body)
      keep (← get).status
      finish status
      runJobs fuel

end

end FirmwareBuild.Posix.Act
