import PageBindings.Page.Basic

/-!
# Exchanges

A page keeps the requests that were sent, in order, each with its errand until the response arrives.
-/

namespace PageBindings

/-- A request that was sent; `errand` says what for, as long as there is no response. -/
structure Exchange where
  request : Request
  errand : Option Errand
deriving DecidableEq, Repr

namespace Exchange

/-- The errand of a request without a response. -/
def pending? (exchanges : List Exchange) (index : Nat) : Option Errand :=
  (exchanges[index]?).bind Exchange.errand

/-- The exchanges once a request has its response. -/
def settle (exchanges : List Exchange) (index : Nat) : List Exchange :=
  exchanges.modify index fun exchange => { exchange with errand := none }

theorem pending?_settle_self (exchanges : List Exchange) (index : Nat) :
    pending? (settle exchanges index) index = none := by
  simp only [pending?, settle, List.getElem?_modify]
  cases exchanges[index]? <;> simp

theorem pending?_settle_of_ne (exchanges : List Exchange) {index other : Nat} (h : other ≠ index) :
    pending? (settle exchanges index) other = pending? exchanges other := by
  simp [pending?, settle, h.symm]

/-- A response changes nothing about what was sent. -/
theorem map_request_settle (exchanges : List Exchange) (index : Nat) :
    (settle exchanges index).map request = exchanges.map request := by
  apply List.ext_getElem?
  intro k
  simp only [settle, List.getElem?_map, List.getElem?_modify]
  split <;> cases exchanges[k]? <;> simp

end Exchange

end PageBindings
