/-
This file resolves namespaces. A scope lists bindings from the innermost element outwards.
-/

namespace RunSigning.Markup

/-- A binding of a qualifier, or of unqualified element names, to a namespace. -/
structure Binding where
  qualifier? : Option String
  uri : String
  deriving DecidableEq, Repr

abbrev Scope := List Binding

/-- The first binding of a qualifier counts; the empty one stands for unqualified names. -/
def Scope.find? (scope : Scope) (qualifier : String) : Option String :=
  let wanted := if qualifier = "" then none else some qualifier
  (List.find? (fun binding => binding.qualifier? == wanted) scope).map Binding.uri

/-- Whether some binding is for the given qualifier. -/
def Scope.binds (scope : Scope) (qualifier : String) : Bool :=
  scope.any fun binding => binding.qualifier? == some qualifier

/-- The namespace that the qualifier xml always stands for. -/
def xmlUri : String := "http://www.w3.org/XML/1998/namespace"

/-- The namespace of namespace declarations. -/
def declarationUri : String := "http://www.w3.org/2000/xmlns/"

end RunSigning.Markup
