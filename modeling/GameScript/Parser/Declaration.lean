import GameScript.Parser.Recovery
import GameScript.Vocabulary.Directive

namespace GameScript.Session

/-! Directives -/

def addDeclaration (s : Session) (d : Declaration) : Session :=
  { s with script := { s.script with declarations := s.script.declarations ++ [d] } }

def addDirective (s : Session) (loc : Location) (kind : DirectiveKind) : Session :=
  let (node, s) := s.withNode loc
  s.addDeclaration (.directive ⟨node, kind⟩)

def addImport (s : Session) (loc : Location) (path : ModulePath) : Session :=
  let (node, s) := s.withNode loc
  let d : Directive := ⟨node, .importScript path⟩
  { s with script := { s.script with imports := s.script.imports ++ [d] } }

def directiveName (s : Session) (loc : Location) (t : Token) : Session :=
  match s.plainName? t with
  | none => s.rejectToken t "a directive name"
  | some name =>
    if DirectiveName.ofWord? name.name = some .includeFile then s.inRoot (.importPath loc [] true)
    else s.inRoot (.directiveHead loc name)

def importPath (s : Session) (loc : Location) (segments : ModulePath) (awaiting : Bool) (t : Token) :
    Session :=
  if awaiting then
    match s.plainName? t with
    | some segment => s.inRoot (.importPath loc (segments ++ [segment]) false)
    | none => s.rejectToken t "a path segment"
  else if t.isSymbol '\\' then s.inRoot (.importPath loc segments true)
  else if t.isSymbol ';' then s.addImport loc segments
  else s.rejectToken t "`\\` or `;`"

def isFresh (s : Script) : Bool :=
  s.imports.isEmpty && s.declarations.isEmpty && s.constants.isEmpty && s.globals.isEmpty

def bareDirective (s : Session) (loc : Location) (name : Ident) : Session :=
  if DirectiveName.ofWord? name.name = some .declarative then
    if isFresh s.script then
      { s with script := { s.script with declarative := true } }.addDirective loc (.bare name)
    else s.report (.lateDeclarative ("#" ++ DirectiveName.declarative.spelling)) loc
  else s.addDirective loc (.bare name)

def directiveHead (s : Session) (loc : Location) (name : Ident) (t : Token) : Session :=
  if t.isSymbol ';' then s.bareDirective loc name
  else if t.isSymbol '(' then (s.inRoot (.directiveArgs loc name [])).beginExpr .directiveArgs
  else s.rejectToken t "`(` or `;`"

def directiveArgEnd (s : Session) (loc : Location) (name : Ident) (args : List Expr) (t : Token) :
    Session :=
  if t.isSymbol ',' then (s.inRoot (.directiveArgs loc name args)).beginExpr .directiveArgs
  else if t.isSymbol ')' then s.inRoot (.directiveEnd loc name args)
  else s.rejectToken t "`,` or `)`"

def directiveArgDone (s : Session) (completed : Completed) (t : Token) : Session :=
  match s.mode with
  | .root (.directiveArgs loc name args) =>
    let s := s.inRoot .idle
    match completed with
    | .value arg => s.directiveArgEnd loc name (args ++ [arg]) t
    | .empty =>
      if t.isSymbol ')' && args.isEmpty then s.directiveArgEnd loc name args t
      else s.rejectToken t "a directive argument"
    | .failed => s.resync t
  | _ => s.inRoot .idle

/-! Constants and globals -/

def addConstant (s : Session) (loc : Location) (name : Ident) (value : Expr) : Session :=
  if s.script.constants.any fun c => c.name.same name then
    s.report (.duplicateConstant name.name) name.loc
  else
    let read := Fold.noteRead s.constants.lookup? value
    let add (s : Session) (folded : Option Value) : Session :=
      let (node, s) := s.withNode loc
      let c : ConstantDecl := ⟨node, name, read, folded⟩
      { s with script := { s.script with constants := s.script.constants ++ [c] } }
    match Fold.evaluate s.constants.lookup? value with
    | .ok v => add { s with constants := (lowerWord name.name, v) :: s.constants } (some v)
    | .error e => add (s.report (.constantNotFolded name.name e) value.loc) none

def constValueDone (s : Session) (completed : Completed) (t : Token) : Session :=
  match s.mode with
  | .root (.constValue loc name) =>
    let quiet :=
      match completed with
      | .failed => true
      | _ => false
    (s.inRoot .idle).expect t ';' quiet fun s =>
      match completed with
      | .value value => s.addConstant loc name value
      | .empty => s.report (.constantWithoutValue name.name) t.loc
      | .failed => s
  | _ => s.inRoot .idle

def globalNames (s : Session) (names : List Ident) (awaiting : Bool) (t : Token) : Session :=
  if awaiting then
    match s.plainName? t with
    | some name => s.inRoot (.globals (names ++ [name]) false)
    | none => s.rejectToken t "a global name"
  else if t.isSymbol ',' then s.inRoot (.globals names true)
  else if t.isSymbol ';' then
    { s with script := { s.script with globals := s.script.globals ++ names } }
  else s.rejectToken t "`,` or `;`"

/-! Functions -/

def paramProblem? (params : List Param) (p : Param) : Option (Problem × Location) :=
  let repeated? := p.name.filter fun name =>
    params.any fun q => (q.name.map fun n => n.same name).getD false
  match repeated? with
  | some name => some (.duplicateParam name.name, name.loc)
  | none =>
    if params.any fun q => q.modifiers.variadic then some (.variadicNotLast, p.loc)
    else if !p.modifiers.optional && !p.modifiers.variadic
        && params.any fun q => q.modifiers.optional then
      some (.requiredAfterOptional, p.loc)
    else none

def addParam (s : Session) (header : FunctionHeader) (p : Param) : FunctionHeader × Session :=
  let s :=
    match paramProblem? header.params p with
    | some (problem, loc) => s.report problem loc
    | none => s
  ({ header with params := header.params ++ [p] }, s)

def closeParams (s : Session) (header : FunctionHeader) (pending : PendingParam) (t : Token) :
    Session :=
  match pending with
  | some (loc, m) =>
    if m.variadic && !m.byRef && !m.optional then
      let (header, s) := s.addParam header ⟨loc, none, m⟩
      s.inRoot (.functionEnd header)
    else (s.report (.unexpected "`)`" "a parameter name") t.loc).resync t
  | none =>
    if header.params.isEmpty then s.inRoot (.functionEnd header)
    else (s.report (.unexpected "`)`" "a parameter after `,`") t.loc).resync t

def paramMark (s : Session) (header : FunctionHeader) (loc : Location) (m : ParamModifiers)
    (again : Bool) (t : Token) : Session :=
  let s := if again then s.report (.repeatedModifier t.describe) t.loc else s
  s.inRoot (.param header (some (loc, m)))

def paramDots (s : Session) (header : FunctionHeader) (loc : Location) (m : ParamModifiers)
    (t : Token) : Session :=
  let (run, stream) := s.stream.symbols ['.'] 2
  let s := { s with stream := stream }
  if run.length ≠ 2 then (s.report (.unexpected "`.`" "`...`") t.loc).resync t
  else
    { s with stream := s.stream.commit 2 }.paramMark header loc { m with variadic := true }
      m.variadic t

def paramToken (s : Session) (header : FunctionHeader) (pending : PendingParam) (t : Token) :
    Session :=
  let (loc, m) := pending.getD (t.loc, {})
  match s.plainName? t with
  | some name =>
    let (header, s) := s.addParam header ⟨loc, some name, m⟩
    s.inRoot (.paramEnd header)
  | none =>
    if t.isSymbol '&' then s.paramMark header loc { m with byRef := true } m.byRef t
    else if t.isSymbol '?' then s.paramMark header loc { m with optional := true } m.optional t
    else if t.isSymbol '.' then s.paramDots header loc m t
    else if t.isSymbol ')' then s.closeParams header pending t
    else s.rejectToken t "a parameter"

def paramEnd (s : Session) (header : FunctionHeader) (t : Token) : Session :=
  if t.isSymbol ',' then s.inRoot (.param header none)
  else if t.isSymbol ')' then s.inRoot (.functionEnd header)
  else s.rejectToken t "`,` or `)`"

def defineFunction (s : Session) (f : FunctionDef) : Session :=
  if s.config.target = .function then { s with output := some (.function f) }
  else if (s.script.findFunction? f.name.name).isSome then
    s.report (.duplicateFunction f.name.name) f.name.loc
  else s.addDeclaration (.function f)

def functionEnd (s : Session) (header : FunctionHeader) (t : Token) : Session :=
  let declarative := s.script.declarative && s.config.target == .script
  if t.isSymbol '\x7b' then
    if declarative then (s.report .bodyInDeclarative t.loc).resync t
    else
      let (node, s) := s.withNode t.loc
      { s.pushStmt (.block ⟨node, .functionBody, []⟩) with mode := .body header }
  else if t.isSymbol ';' then
    if declarative then s.defineFunction (header.define none)
    else s.report (.missingBody header.name.name) header.node.loc
  else s.rejectToken t "`\x7b`"

/-! Dispatch -/

def functionTarget (s : Session) (t : Token) : Session :=
  if s.output.isSome then
    let s := if t.isEof then s else s.reportUnexpected t "end of input after the function"
    { s with mode := .done }
  else if t.isEof then { s.report .missingFunction t.loc with mode := .done }
  else
    match s.plainName? t with
    | some name => s.inRoot (.functionOpen name)
    | none => s.rejectToken t "a function definition"

def rootIdle (s : Session) (t : Token) : Session :=
  if s.config.target = .function then s.functionTarget t
  else if t.isEof then { s with script := {}, output := some (.script s.script), mode := .done }
  else if t.isSymbol '#' then s.inRoot (.directiveName t.loc)
  else if t.isSymbol ';' then s.report .straySemicolon t.loc
  else if t.isKeyword .constKw s.gameMode then s.inRoot (.constName t.loc)
  else if t.isKeyword .globalKw s.gameMode then s.inRoot (.globals [] true)
  else
    match s.plainName? t with
    | some name => s.inRoot (.functionOpen name)
    | none => s.rejectToken t "a declaration"

def isIdle : RootPhase → Bool
  | .idle => true
  | _ => false

/-- The session is idle when a handler gets the token. The end of the input breaks off any
declaration. -/
def rootToken (s : Session) (phase : RootPhase) (t : Token) : Session :=
  let s := s.inRoot .idle
  if t.isEof && !isIdle phase then
    (s.report (.unexpected "end of input" "the rest of the declaration") t.loc).rootIdle t
  else
    match phase with
    | .idle => s.rootIdle t
    | .directiveName loc => s.directiveName loc t
    | .importPath loc segments awaiting => s.importPath loc segments awaiting t
    | .directiveHead loc name => s.directiveHead loc name t
    | .directiveEnd loc name args =>
      s.expect t ';' false fun s => s.addDirective loc (.withArgs name args)
    | .constName loc =>
      match s.plainName? t with
      | some name => s.inRoot (.constEquals loc name)
      | none => s.rejectToken t "a constant name"
    | .constEquals loc name =>
      s.expect t '=' false fun s => (s.inRoot (.constValue loc name)).beginExpr .constValue
    | .globals names awaiting => s.globalNames names awaiting t
    | .functionOpen name =>
      s.expect t '(' false fun s =>
        let (node, s) := s.withNode name.loc
        s.inRoot (.param ⟨node, name, []⟩ none)
    | .param header pending => s.paramToken header pending t
    | .paramEnd header => s.paramEnd header t
    | .functionEnd header => s.functionEnd header t
    | .directiveArgs .. | .constValue .. => s

end GameScript.Session
