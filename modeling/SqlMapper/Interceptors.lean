/-!
Chains of interceptors, each of which takes a target and gives one that stands in for it. The last
one that was added is outermost.
-/

namespace SqlMapper

structure Interceptors (τ : Type) where
  all : List (τ → τ)

namespace Interceptors

variable {τ : Type}

def empty : Interceptors τ := ⟨[]⟩

def add (f : τ → τ) (chain : Interceptors τ) : Interceptors τ := ⟨chain.all ++ [f]⟩

def wrap (chain : Interceptors τ) (target : τ) : τ :=
  chain.all.foldl (fun t f => f t) target

def size (chain : Interceptors τ) : Nat := chain.all.length

def describe (chain : Interceptors τ) : String :=
  "InterceptorChain \x7b interceptors: " ++ toString chain.size ++ " \x7d"

@[simp] theorem wrap_empty (target : τ) : (empty : Interceptors τ).wrap target = target := rfl

/-- The interceptor added last is the outermost. -/
@[simp] theorem wrap_add (f : τ → τ) (chain : Interceptors τ) (target : τ) :
    (chain.add f).wrap target = f (chain.wrap target) := by
  simp [wrap, add]

end Interceptors
end SqlMapper
