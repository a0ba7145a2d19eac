import ServiceKit.Fault.Basic

/-!
Errors that are shared by reference. A store holds every error made so far; an application error
that is changed through one reference is seen changed through all of them.
-/

namespace ServiceKit.Fault

/-- An error in a store, by the order in which it was made. -/
abbrev Ref := Nat

/-- An error. The text of a wrapper is fixed when the wrapper is made; that of a joined error
follows its members. -/
inductive Node where
  | plain (text : Text)
  | app (fault : Fault Ref)
  | wrapped (text : Text) (inner : Option Ref)
  | joined (members : List Ref)

/-- The errors directly inside an error, from left to right. -/
def Node.inner : Node → List Ref
  | plain _ => []
  | app f => f.cause.toList
  | wrapped _ i => i.toList
  | joined ms => ms

structure Store where
  nodes : List Node := []

namespace Store

def size (s : Store) : Nat := s.nodes.length

def get? (s : Store) (r : Ref) : Option Node := s.nodes[r]?

def fault? (s : Store) (r : Ref) : Option (Fault Ref) :=
  match s.get? r with
  | some (.app f) => some f
  | _ => none

def add (s : Store) (n : Node) : Store × Ref := (⟨s.nodes ++ [n]⟩, s.size)

/-- The application error at a reference is changed; any other error stays as it is. -/
def update (s : Store) (r : Ref) (change : Fault Ref → Fault Ref) : Store :=
  match s.fault? r with
  | some f => ⟨s.nodes.set r (.app (change f))⟩
  | none => s

/-- The errors directly inside the error at a reference. -/
def inner (s : Store) (r : Ref) : List Ref :=
  match s.get? r with
  | some n => n.inner
  | none => []

/-- The text of an error. Every reference on the way to a text is a different one, so as many steps
as there are errors are enough. -/
def textWithin (s : Store) : Nat → Ref → Text
  | 0, _ => []
  | fuel + 1, r =>
    match s.get? r with
    | some (.plain t) => t
    | some (.app f) => f.text (s.textWithin fuel)
    | some (.wrapped t _) => t
    | some (.joined ms) => Text.join [0x0A] (ms.map (s.textWithin fuel))
    | none => []

def text (s : Store) (r : Ref) : Text := s.textWithin s.size r

/-- The error, or the first of the errors inside it, that passes a test. An error is tested before
those inside it, and these are searched one after the other, until one is found. -/
def search (s : Store) (test : Ref → Bool) : Nat → Ref → Option Ref
  | 0, _ => none
  | fuel + 1, r => if test r then some r else (s.inner r).findSome? (s.search test fuel)

def first? (s : Store) (test : Ref → Bool) (r : Ref) : Option Ref := s.search test s.size r

def isFault (s : Store) (r : Ref) : Bool := (s.fault? r).isSome

/-- The application error that an error is or has inside it. -/
def asFault? (s : Store) (e : Option Ref) : Option Ref := e.bind (s.first? s.isFault)

def hasFault (s : Store) (e : Option Ref) : Bool := (s.asFault? e).isSome

/-- Is a target an error, or inside it? No error is only in no error. -/
def holds (s : Store) : Option Ref → Option Ref → Bool
  | none, none => true
  | some r, some target => (s.first? (· == target) r).isSome
  | _, _ => false

/-- The error directly inside an error, if there is exactly one place for it. -/
def unwrap? (s : Store) (r : Ref) : Option Ref :=
  match s.get? r with
  | some (.app f) => f.cause
  | some (.wrapped _ i) => i
  | _ => none

/-- The text of a wrapper for an error that may be missing. -/
def wrapperText (s : Store) (lead : Text) : Option Ref → Text
  | some r => lead ++ utf8 ": " ++ s.text r
  | none => lead ++ utf8 ": %!w(<nil>)"

end Store

/-- Something that is done with errors, which are given as operands of type `ρ`. -/
inductive Event (ρ : Type) where
  | plain (text : Text)
  | fresh (code message : Text)
  | invalidInput (field reason : Text)
  | validation (message : Text)
  | missingField (field : Text)
  | invalidFormat (field expected : Text)
  | internal (cause : ρ)
  | wrapText (lead : Text) (inner : ρ)
  | join (members : List ρ)
  | wrap (inner : ρ)
  | withCause (target cause : ρ)
  | withDetail (target : ρ) (key : Text) (value : Detail)
  | withDetails (target : ρ) (details : Keyed Detail)

namespace Event

variable {ρ σ : Type}

def map (f : ρ → σ) : Event ρ → Event σ
  | plain t => plain t
  | fresh code message => fresh code message
  | invalidInput field reason => invalidInput field reason
  | validation message => validation message
  | missingField field => missingField field
  | invalidFormat field expected => invalidFormat field expected
  | internal cause => internal (f cause)
  | wrapText lead inner => wrapText lead (f inner)
  | join members => join (members.map f)
  | wrap inner => wrap (f inner)
  | withCause target cause => withCause (f target) (f cause)
  | withDetail target key value => withDetail (f target) key value
  | withDetails target details => withDetails (f target) details

end Event

namespace Store

def addNode (s : Store) (n : Node) : Store × Option Ref :=
  let (s, r) := s.add n
  (s, some r)

def addFault (s : Store) (f : Fault Ref) : Store × Option Ref := s.addNode (.app f)

/-- An error as an application error: the one that it is or has inside it, or else a new one that has the
error as its cause. -/
def wrap (s : Store) : Option Ref → Store × Option Ref
  | none => (s, none)
  | some r =>
    match s.asFault? (some r) with
    | some q => (s, some q)
    | none => s.addFault (.internal (some r))

/-- A change to an error yields the error. -/
def change (s : Store) (target : Option Ref) (f : Fault Ref → Fault Ref) : Store × Option Ref :=
  match target with
  | some r => (s.update r f, some r)
  | none => (s, none)

/-- The store after an event, and the error that the event yields. -/
def step (s : Store) : Event (Option Ref) → Store × Option Ref
  | .plain t => s.addNode (.plain t)
  | .fresh code message => s.addFault { code, message }
  | .invalidInput field reason => s.addFault (.invalidInput field reason)
  | .validation message => s.addFault (.validation message)
  | .missingField field => s.addFault (.missingField field)
  | .invalidFormat field expected => s.addFault (.invalidFormat field expected)
  | .internal cause => s.addFault (.internal cause)
  | .wrapText lead inner => s.addNode (.wrapped (s.wrapperText lead inner) inner)
  | .join members =>
    match members.filterMap id with
    | [] => (s, none)
    | ms => s.addNode (.joined ms)
  | .wrap e => s.wrap e
  | .withCause target cause => s.change target (·.withCause cause)
  | .withDetail target key value => s.change target (·.withDetail key value)
  | .withDetails target details => s.change target (·.withDetails details)

end Store

end ServiceKit.Fault
