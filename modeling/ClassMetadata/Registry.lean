import ClassMetadata.Live.Class

/-!
# The registry of classes

The classes that a signature can name, each under its own name.  Registering a class puts it in the place
of an older one of its name.

* `Registry.lookup`, `Registry.register`, and how the two go together;
* `Registry.enclosingChain`: a class, the class around it, and so on outwards.
-/

namespace ClassMetadata

structure Registry where
  classes : List Class

namespace Registry

def empty : Registry := ⟨[]⟩

/-- The class registered under a name. -/
def lookup (r : Registry) (name : String) : Option Class := r.classes.find? fun c => c.name == name

def contains (r : Registry) (name : String) : Bool := (r.lookup name).isSome

def size (r : Registry) : Nat := r.classes.length

/-- Puts a class in the place of the one of its name, or at the end. -/
def put (c : Class) : List Class → List Class
  | [] => [c]
  | d :: rest => if d.name = c.name then c :: rest else d :: put c rest

def register (r : Registry) (c : Class) : Registry := ⟨put c r.classes⟩

def registerAll (r : Registry) (cs : List Class) : Registry := cs.foldl register r

theorem find?_put (c : Class) (cs : List Class) (name : String) :
    (put c cs).find? (fun d => d.name == name) =
      if c.name = name then some c else cs.find? (fun d => d.name == name) := by
  induction cs with
  | nil => by_cases h : c.name = name <;> simp [put, h]
  | cons d rest ih =>
    unfold put
    by_cases hd : d.name = c.name
    · by_cases h : c.name = name <;> simp [hd, h]
    · by_cases h : c.name = name
      · have hn : d.name ≠ name := fun e => hd (e.trans h.symm)
        simp [hn, ih, h]
      · by_cases hn : d.name = name
        · simp [hn, h, Ne.symm h]
        · simp [hd, hn, ih, h]

theorem lookup_register (r : Registry) (c : Class) (name : String) :
    (r.register c).lookup name = if c.name = name then some c else r.lookup name :=
  find?_put c r.classes name

theorem name_of_lookup {r : Registry} {name : String} {c : Class} (h : r.lookup name = some c) :
    c.name = name := by
  simpa using List.find?_some h

/-! ### the core classes -/

/-- The classes of `java.lang` that class literals commonly refer to. -/
def coreClasses : List Class :=
  [.named .plain "java.lang.Object", .named .plain "java.lang.String", .named .plain "java.lang.Number",
   .named .plain "java.lang.Integer",
   (Class.named .plain "java.lang.Class").withTypeParameters ["T"],
   (Class.named .plain "java.lang.Enum").withTypeParameters ["E"],
   .named .interface "java.lang.annotation.Annotation"]

def core : Registry := empty.registerAll coreClasses

/-! ### enclosing classes -/

/-- The class around a class, if it has one that is registered. -/
def enclosing? (r : Registry) (c : Class) : Option Class := c.enclosing.bind r.lookup

/-- A class and the classes around it, at most so many, as long as their names are new. -/
def chainFrom (r : Registry) : Nat → List String → Class → List Class
  | 0, _, _ => []
  | n + 1, seen, c =>
    if c.name ∈ seen then []
    else c :: (r.enclosing? c).elim [] (r.chainFrom n (c.name :: seen))

/-- A class and the classes around it, innermost first, up to the first name that comes again.  All but
the first class are registered and their names differ, so there are at most `size + 1`. -/
def enclosingChain (r : Registry) (c : Class) : List Class := r.chainFrom (r.size + 1) [] c

end Registry

end ClassMetadata
