/-!
# Log records

Operations that report something return their records beside their value; `Logged` is that pair,
with the records of a sequence of operations in order.
-/

namespace EntityScripting

/-- How much a record matters; `print` marks the lines that a level script prints itself. -/
inductive Severity where
  | debug
  | info
  | warn
  | print
deriving DecidableEq, Repr, Inhabited

/-- One line of the log. -/
structure Record where
  severity : Severity
  text : String
deriving DecidableEq, Repr, Inhabited

/-- A value and the records that computing it left, in order. -/
structure Logged (α : Type) where
  value : α
  records : List Record := []
deriving Repr

namespace Logged

def bind {α β : Type} (x : Logged α) (f : α → Logged β) : Logged β :=
  let y := f x.value
  ⟨y.value, x.records ++ y.records⟩

instance : Monad Logged where
  pure a := ⟨a, []⟩
  bind := bind

/-- A value with one record. -/
def note {α : Type} (severity : Severity) (text : String) (value : α) : Logged α :=
  ⟨value, [⟨severity, text⟩]⟩

@[simp] theorem value_pure {α : Type} (a : α) : (pure a : Logged α).value = a := rfl

@[simp] theorem value_bind {α β : Type} (x : Logged α) (f : α → Logged β) :
    (x >>= f).value = (f x.value).value := rfl

@[simp] theorem records_pure {α : Type} (a : α) : (pure a : Logged α).records = [] := rfl

@[simp] theorem records_bind {α β : Type} (x : Logged α) (f : α → Logged β) :
    (x >>= f).records = x.records ++ (f x.value).records := rfl

end Logged

end EntityScripting
