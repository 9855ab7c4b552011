import EntityScripting.Script.Token

/-!
# Grammar

`Grammar.program` reads the statements of a script from its tokens. Operators bind by `priority`;
the fuel of the readers is the number of tokens times the most steps that one token can take.
-/

namespace EntityScripting.Script

open Number Text

namespace Grammar

/-- The tokens to come, and the line of the last one taken. -/
structure Cursor where
  rest : List Lexeme
  last : Nat := 1

abbrev Reader := StateT Cursor Option

def peek? : Reader (Option Token) := return (← get).rest.head?.map (·.token)

/-- The line of the token to come. -/
def line : Reader Nat := do
  let cursor ← get
  return (cursor.rest.head?.map (·.line)).getD cursor.last

def take : Reader Token := do
  match (← get).rest with
  | lexeme :: rest => set (⟨rest, lexeme.line⟩ : Cursor); return lexeme.token
  | [] => failure

def isNext (mark : String) : Reader Bool := return (← peek?) == some (.mark mark)

/-- Takes a mark if it comes next. -/
def accept (mark : String) : Reader Bool := do
  if ← isNext mark then
    let _ ← take
    return true
  else return false

def expect (mark : String) : Reader Unit := do
  if ← accept mark then return else failure

def name : Reader Name := do
  match ← take with
  | .name x => return x
  | _ => failure

/-- A part and more of it after commas; fuel bounds their number. -/
def separated {α : Type} (part : Reader α) : Nat → Reader (List α)
  | 0 => failure
  | fuel + 1 => do
    let first ← part
    if ← accept "," then return first :: (← separated part fuel) else return [first]

/-! ### Operators -/

def unaryOp? : Token → Option UnaryOp
  | .mark "not" => some .not
  | .mark "-" => some .negate
  | .mark "~" => some .complement
  | .mark "#" => some .length
  | _ => none

/-- An operator between two operands. -/
inductive Connective where
  | and
  | or
  | binary (op : BinaryOp)

def connective? : Token → Option Connective
  | .mark "and" => some .and
  | .mark "or" => some .or
  | .mark "<" => some (.binary .lt)
  | .mark ">" => some (.binary .gt)
  | .mark "<=" => some (.binary .le)
  | .mark ">=" => some (.binary .ge)
  | .mark "~=" => some (.binary .ne)
  | .mark "==" => some (.binary .eq)
  | .mark "|" => some (.binary .bitOr)
  | .mark "~" => some (.binary .bitXor)
  | .mark "&" => some (.binary .bitAnd)
  | .mark "<<" => some (.binary .shiftLeft)
  | .mark ">>" => some (.binary .shiftRight)
  | .mark ".." => some (.binary .concat)
  | .mark "+" => some (.binary .add)
  | .mark "-" => some (.binary .sub)
  | .mark "*" => some (.binary .mul)
  | .mark "/" => some (.binary .div)
  | .mark "//" => some (.binary .floorDiv)
  | .mark "%" => some (.binary .mod)
  | .mark "^" => some (.binary .pow)
  | _ => none

/-- How strongly an operator binds its left and its right operand. -/
def priority : Connective → Nat × Nat
  | .or => (1, 1)
  | .and => (2, 2)
  | .binary .bitOr => (4, 4)
  | .binary .bitXor => (5, 5)
  | .binary .bitAnd => (6, 6)
  | .binary .shiftLeft | .binary .shiftRight => (7, 7)
  | .binary .concat => (9, 8)
  | .binary .add | .binary .sub => (10, 10)
  | .binary .mul | .binary .div | .binary .floorDiv | .binary .mod => (11, 11)
  | .binary .pow => (14, 13)
  | .binary _ => (3, 3)

/-- How strongly an operator in front of its operand binds it. -/
def unaryPriority : Nat := 12

/-- The expression of an operator and its operands. A comparison belongs to the line where its right
operand ends, any other operator to its own. -/
def Connective.apply (left right : Expr) (own last : Nat) : Connective → Expr
  | .and => .and left right
  | .or => .or left right
  | .binary op =>
    match op with
    | .eq | .ne | .lt | .le | .gt | .ge => .binary op left right last
    | op => .binary op left right own

/-! ### Expressions and statements -/

/-- Whether a token ends a block. -/
def endsBlock : Option Token → Bool
  | none => true
  | some (.mark s) => s == "end" || s == "else" || s == "elseif" || s == "until"
  | _ => false

def isTarget : Expr → Bool
  | .name .. | .index .. => true
  | _ => false

def isCall : Expr → Bool
  | .call .. | .method .. => true
  | _ => false

def marking? (x : Name) : Option Attribute :=
  if x == utf8 "const" then some .constant
  else if x == utf8 "close" then some .toClose
  else none

/-- The attribute after the name of a local variable, if there is one. -/
def marking : Reader Attribute := do
  if ← accept "<" then
    match marking? (← name) with
    | some a => expect ">"; return a
    | none => failure
  else return .variable

/-- The rest of a parameter list after its opening parenthesis; fuel bounds its length. -/
def parameters : Nat → Reader (List Name × Bool)
  | 0 => failure
  | fuel + 1 => do
    if ← accept "..." then expect ")"; return ([], true)
    let x ← name
    if ← accept "," then
      let (xs, isVararg) ← parameters fuel
      return (x :: xs, isVararg)
    else expect ")"; return ([x], false)

mutual

def expr : Nat → Nat → Reader Expr
  | 0, _ => failure
  | fuel + 1, limit => do
    match (← peek?).bind unaryOp? with
    | some op =>
      let line ← line
      let _ ← take
      let operand ← expr fuel unaryPriority
      operators fuel limit (.unary op operand line)
    | none => operators fuel limit (← simple fuel)
termination_by structural fuel => fuel

/-- The operators that bind more strongly than the limit, with their right operands. -/
def operators : Nat → Nat → Expr → Reader Expr
  | 0, _, _ => failure
  | fuel + 1, limit, left => do
    match (← peek?).bind connective? with
    | none => return left
    | some connective =>
      if (priority connective).1 ≤ limit then return left
      else
        let own ← line
        let _ ← take
        let right ← expr fuel (priority connective).2
        operators fuel limit (connective.apply left right own (← get).last)
termination_by structural fuel => fuel

def simple : Nat → Reader Expr
  | 0 => failure
  | fuel + 1 => do
    match ← peek? with
    | some (.numeral (.integer n)) => let _ ← take; return .integer n
    | some (.numeral (.number x)) => let _ ← take; return .number x
    | some (.text s) => let _ ← take; return .text s
    | some (.mark "nil") => let _ ← take; return .nil
    | some (.mark "true") => let _ ← take; return .boolean true
    | some (.mark "false") => let _ ← take; return .boolean false
    | some (.mark "...") => let _ ← take; return .varargs
    | some (.mark "\x7b") => table fuel
    | some (.mark "function") =>
      let _ ← take
      function fuel
    | _ => suffixed fuel
termination_by structural fuel => fuel

/-- A function after its keyword or its name. -/
def function : Nat → Reader Expr
  | 0 => failure
  | fuel + 1 => do
    expect "("
    let (params, isVararg) ← if ← accept ")" then pure ([], false) else parameters fuel
    let body ← block fuel
    expect "end"
    return .function params isVararg body
termination_by structural fuel => fuel

def suffixed : Nat → Reader Expr
  | 0 => failure
  | fuel + 1 => do
    match ← take with
    | .name x => suffixes fuel (.name x (← get).last)
    | .mark "(" =>
      let inner ← expr fuel 0
      expect ")"
      suffixes fuel (.paren inner)
    | _ => failure
termination_by structural fuel => fuel

/-- The fields, keys and calls after an expression. -/
def suffixes : Nat → Expr → Reader Expr
  | 0, _ => failure
  | fuel + 1, e => do
    match ← peek? with
    | some (.mark ".") =>
      let _ ← take
      let key ← name
      suffixes fuel (.index e (.text key) (← get).last)
    | some (.mark "[") =>
      let _ ← take
      let key ← expr fuel 0
      expect "]"
      suffixes fuel (.index e key (← get).last)
    | some (.mark ":") =>
      let _ ← take
      let method ← name
      let nameLine := (← get).last
      let line ← line
      let args ← arguments fuel
      suffixes fuel (.method e method args nameLine line)
    | some (.mark "(") | some (.mark "\x7b") | some (.text _) =>
      let line ← line
      let args ← arguments fuel
      suffixes fuel (.call e args line)
    | _ => return e
termination_by structural fuel => fuel

def arguments : Nat → Reader (List Expr)
  | 0 => failure
  | fuel + 1 => do
    match ← peek? with
    | some (.text s) => let _ ← take; return [.text s]
    | some (.mark "\x7b") => return [← table fuel]
    | _ =>
      expect "("
      if ← accept ")" then return []
      let args ← exprs fuel
      expect ")"
      return args
termination_by structural fuel => fuel

def exprs : Nat → Reader (List Expr)
  | 0 => failure
  | fuel + 1 => do
    let first ← expr fuel 0
    if ← accept "," then return first :: (← exprs fuel) else return [first]
termination_by structural fuel => fuel

def table : Nat → Reader Expr
  | 0 => failure
  | fuel + 1 => do
    expect "\x7b"
    return .table (← fields fuel)
termination_by structural fuel => fuel

/-- The fields of a table up to its closing brace. -/
def fields : Nat → Reader (List TableField)
  | 0 => failure
  | fuel + 1 => do
    if ← accept "\x7d" then return []
    let field ← field fuel
    if (← accept ",") || (← accept ";") then return field :: (← fields fuel)
    else expect "\x7d"; return [field]
termination_by structural fuel => fuel

def field : Nat → Reader TableField
  | 0 => failure
  | fuel + 1 => do
    match (← get).rest with
    | ⟨.mark "[", _⟩ :: _ =>
      let _ ← take
      let key ← expr fuel 0
      expect "]"
      expect "="
      let value ← expr fuel 0
      return .entry key value (← get).last
    | ⟨.name x, _⟩ :: ⟨.mark "=", _⟩ :: _ =>
      let _ ← take
      let _ ← take
      let value ← expr fuel 0
      return .entry (.text x) value (← get).last
    | _ => return .item (← expr fuel 0)
termination_by structural fuel => fuel

def block : Nat → Reader (List Statement)
  | 0 => failure
  | fuel + 1 => do
    if endsBlock (← peek?) then return []
    if ← isNext "return" then return [← returned fuel]
    if ← accept ";" then block fuel
    else
      let first ← statement fuel
      return first :: (← block fuel)
termination_by structural fuel => fuel

/-- A return, which ends its block. -/
def returned : Nat → Reader Statement
  | 0 => failure
  | fuel + 1 => do
    expect "return"
    let values ← if endsBlock (← peek?) || (← isNext ";") then pure [] else exprs fuel
    let _ ← accept ";"
    if endsBlock (← peek?) then return .ret values else failure
termination_by structural fuel => fuel

def statement : Nat → Reader Statement
  | 0 => failure
  | fuel + 1 => do
    let line ← line
    match ← peek? with
    | some (.mark "if") =>
      let _ ← take
      branches fuel
    | some (.mark "while") =>
      let _ ← take
      let condition ← expr fuel 0
      expect "do"
      let body ← block fuel
      expect "end"
      return .whileLoop condition body
    | some (.mark "do") =>
      let _ ← take
      let body ← block fuel
      expect "end"
      return .block body
    | some (.mark "for") =>
      let _ ← take
      forLoop fuel line
    | some (.mark "repeat") =>
      let _ ← take
      let body ← block fuel
      expect "until"
      return .repeatLoop body (← expr fuel 0)
    | some (.mark "function") =>
      let _ ← take
      functionStatement fuel line
    | some (.mark "local") =>
      let _ ← take
      declaration fuel
    | some (.mark "break") =>
      let _ ← take
      return .leave
    | some (.mark "::") =>
      let _ ← take
      let _ ← name
      expect "::"
      return .block []
    | _ =>
      let e ← suffixed fuel
      if (← isNext "=") || (← isNext ",") then
        let others ← if ← accept "," then separated (suffixed fuel) fuel else pure []
        let targets := e :: others
        expect "="
        let values ← exprs fuel
        if targets.all isTarget then return .assign targets values (← get).last else failure
      else if isCall e then return .call e
      else failure
termination_by structural fuel => fuel

/-- A condition, its block and the branches after it. -/
def branches : Nat → Reader Statement
  | 0 => failure
  | fuel + 1 => do
    let condition ← expr fuel 0
    expect "then"
    let positive ← block fuel
    if ← accept "elseif" then return .branch condition positive [← branches fuel]
    let negative ← if ← accept "else" then block fuel else pure []
    expect "end"
    return .branch condition positive negative
termination_by structural fuel => fuel

def forLoop : Nat → Nat → Reader Statement
  | 0, _ => failure
  | fuel + 1, line => do
    let first ← name
    if ← accept "=" then
      let start ← expr fuel 0
      expect ","
      let limit ← expr fuel 0
      let step ← if ← accept "," then some <$> expr fuel 0 else pure none
      expect "do"
      let body ← block fuel
      expect "end"
      return .countLoop first start limit step body line
    else
      let others ← if ← accept "," then separated name fuel else pure []
      expect "in"
      let values ← exprs fuel
      expect "do"
      let body ← block fuel
      expect "end"
      return .eachLoop (first :: others) values body line
termination_by structural fuel => fuel

/-- A function statement after its keyword; a method has one more parameter in front. -/
def functionStatement : Nat → Nat → Reader Statement
  | 0, _ => failure
  | fuel + 1, line => do
    let first ← name
    let target ← path fuel (.name first (← get).last)
    let isMethod ← accept ":"
    let target : Expr ←
      if isMethod then pure (.index target (.text (← name)) (← get).last) else pure target
    match ← function fuel with
    | .function params isVararg body =>
      let params := if isMethod then utf8 "self" :: params else params
      return .assign [target] [.function params isVararg body] line
    | _ => failure
termination_by structural fuel => fuel

/-- The fields after the name in a function statement. -/
def path : Nat → Expr → Reader Expr
  | 0, _ => failure
  | fuel + 1, e => do
    if ← accept "." then
      let key ← name
      path fuel (.index e (.text key) (← get).last)
    else return e
termination_by structural fuel => fuel

def declaration : Nat → Reader Statement
  | 0 => failure
  | fuel + 1 => do
    if ← accept "function" then
      let x ← name
      match ← function fuel with
      | .function params isVararg body => return .declareFunction x params isVararg body
      | _ => failure
    else
      let names ← separated (do let x ← name; return (x, ← marking)) fuel
      let values ← if ← accept "=" then exprs fuel else pure []
      return .declare names values (← get).last
termination_by structural fuel => fuel
end

/-- The most steps of the readers between two tokens. -/
def stepsPerToken : Nat := 16

/-- The statements of a whole script. -/
def program (lexemes : List Lexeme) : Option (List Statement) :=
  match (block (stepsPerToken * (lexemes.length + 1))).run ⟨lexemes, 1⟩ with
  | some (body, ⟨[], _⟩) => some body
  | _ => none

end Grammar

end EntityScripting.Script
