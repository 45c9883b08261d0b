/-!
# What holds of results

`Gives fails good r` says of a result that it is good, or that it is an error of a kind that is
accounted for. It is shown of a computation part by part: `Gives.bind` puts together what is shown
of a part and of what goes on from there.
-/

namespace SchemaBaseline

/-- A result of which `good` holds, or an error of which `fails` holds. -/
def Gives {ε α : Type} (fails : ε → Prop) (good : α → Prop) : Except ε α → Prop
  | .ok a => good a
  | .error e => fails e

namespace Gives

variable {ε α β : Type} {fails fails' : ε → Prop} {good good' : α → Prop} {later : β → Prop}

theorem ok {r : Except ε α} {a : α} (gives : Gives fails good r) (same : r = .ok a) : good a := by
  rwa [same] at gives

theorem error {r : Except ε α} {e : ε} (gives : Gives fails good r) (same : r = .error e) :
    fails e := by
  rwa [same] at gives

theorem bind {r : Except ε α} {f : α → Except ε β} (first : Gives fails good r)
    (next : ∀ a, good a → Gives fails later (f a)) : Gives fails later (r >>= f) := by
  cases r with
  | ok a => exact next a first
  | error e => exact first

theorem map {r : Except ε α} {f : α → β} (first : Gives fails good r)
    (next : ∀ a, good a → later (f a)) :
    Gives fails later (r.map f) := by
  cases r with
  | ok a => exact next a first
  | error e => exact first

theorem imp {r : Except ε α} (gives : Gives fails good r) (errors : ∀ e, fails e → fails' e)
    (results : ∀ a, good a → good' a) :
    Gives fails' good' r := by
  cases r with
  | ok a => exact results a gives
  | error e => exact errors e gives

end Gives

end SchemaBaseline
