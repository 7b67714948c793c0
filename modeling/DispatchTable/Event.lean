import DispatchTable.Header.Dialect
import DispatchTable.Template

/-!
# Events

What a run reports beside its result. An event holds the facts; its level and its message are read
off them. A traced result is a result with the events that led to it, in order.
-/

namespace DispatchTable

/-- How much an event matters. -/
inductive Level where
  | debug
  | info
  | warn
  deriving DecidableEq, Repr

/-- The name of a level. -/
def Level.name : Level → Text
  | debug => "DEBUG".toList
  | info => "INFO".toList
  | warn => "WARN".toList

/-- What a run reports. -/
inductive Event where
  /-- A header ended before a statement was complete. -/
  | cutStatement (text : Text)
  /-- A header ended inside a layout block. -/
  | cutBlock (dialect : Dialect)
  /-- A header was read to its end. -/
  | outlined (dialect : Dialect) (statements members : Nat)
  /-- Every statement was read as a declaration. -/
  | declared (plain extended : Nat)
  /-- A plain function has no extended counterpart. -/
  | onlyPlain (name : Text)
  /-- An extended function with arguments has no plain counterpart to name them. -/
  | unnamedArguments (name : Text)
  /-- An excluded name belongs to no function. -/
  | excludedUndeclared (name : Text)
  /-- A table is about to be printed. -/
  | rendering (template : Template) (functions excluded : Nat)
  /-- A template was chosen. -/
  | chosen (template : Template)
  /-- A function will be excluded. -/
  | excluding (name : Text)
  /-- Both headers were read and merged. -/
  | loaded (plain extended : Nat)
  /-- The output was written. -/
  | wrote (path : Text)
  deriving DecidableEq, Repr

namespace Event

/-- The level of an event. -/
def level : Event → Level
  | unnamedArguments _ => .warn
  | chosen _ | excluding _ | loaded _ _ | wrote _ => .info
  | _ => .debug

/-- The wording of an event. -/
def message : Event → Text
  | cutStatement text => "input ended inside statement '".toList ++ text ++ ['\'']
  | cutBlock dialect => "input ended inside '".toList ++ dialect.blockLead ++ "' block".toList
  | outlined dialect statements members =>
    "scanned ".toList ++ Text.ofNat statements ++ " '".toList ++ dialect.statementLead ++
      "' statement(s), ".toList ++ Text.ofNat members ++ " function list member(s)".toList
  | declared plain extended =>
    "parsed ".toList ++ Text.ofNat plain ++ " plain and ".toList ++ Text.ofNat extended ++
      " extended function(s)".toList
  | onlyPlain name => "plain function '".toList ++ name ++ "' has no extended counterpart".toList
  | unnamedArguments name =>
    "extended function '".toList ++ name ++
      "' has no plain counterpart; its arguments stay unnamed".toList
  | excludedUndeclared name => "excluded function '".toList ++ name ++ "' is not declared".toList
  | rendering template functions excluded =>
    "rendering ".toList ++ template.table ++ " with ".toList ++ Text.ofNat functions ++
      " function(s), ".toList ++ Text.ofNat excluded ++ " excluded".toList
  | chosen template => "[~] Template: ".toList ++ template.title
  | excluding name => "    - excluding ".toList ++ name
  | loaded plain extended =>
    "[✓] Loaded ".toList ++ Text.ofNat plain ++ " plain and ".toList ++ Text.ofNat extended ++
      " extended function(s)".toList
  | wrote path => "[✓] Wrote ".toList ++ path

/-- The log line of an event: its level and its message. -/
def line (e : Event) : Text := e.level.name ++ [' '] ++ e.message

end Event

/-- A result and the events that led to it. -/
structure Traced (ε α : Type) where
  log : List Event
  result : Except ε α

namespace Traced

variable {ε α β : Type}

/-- A value that nothing is reported about. -/
def pure (a : α) : Traced ε α := ⟨[], .ok a⟩

/-- A failure that nothing else is reported about. -/
def fail (e : ε) : Traced ε α := ⟨[], .error e⟩

/-- A result that nothing is reported about. -/
def ofExcept (x : Except ε α) : Traced ε α := ⟨[], x⟩

/-- The report of some events. -/
def tell (log : List Event) : Traced ε Unit := ⟨log, .ok ()⟩

/-- Go on with the value of `x`, unless it failed. -/
def bind (x : Traced ε α) (next : α → Traced ε β) : Traced ε β :=
  match x.result with
  | .ok a => ⟨x.log ++ (next a).log, (next a).result⟩
  | .error e => ⟨x.log, .error e⟩

instance : Monad (Traced ε) where
  pure := Traced.pure
  bind := Traced.bind

/-- The same run, its failure told in other terms. -/
def mapError {ε' : Type} (f : ε → ε') (x : Traced ε α) : Traced ε' α :=
  ⟨x.log, x.result.mapError f⟩

/-- The result of a continued run is the continued result. -/
theorem result_bind (x : Traced ε α) (next : α → Traced ε β) :
    (x >>= next).result = x.result >>= fun a => (next a).result := by
  change (Traced.bind x next).result = _
  unfold Traced.bind
  cases x.result <;> rfl

/-- A continued run reports its events and then, unless it failed, those of what follows. -/
theorem log_bind (x : Traced ε α) (next : α → Traced ε β) :
    (x >>= next).log = x.log ++ (match x.result with
      | .ok a => (next a).log
      | .error _ => []) := by
  change (Traced.bind x next).log = _
  unfold Traced.bind
  cases x.result <;> simp

end Traced

end DispatchTable
