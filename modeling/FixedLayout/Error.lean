import FixedLayout.Text.Quoted

/-! What can go wrong, as causes, and the one wording of each. An error ends the run; a diagnostic
records that one declaration was degraded and lets the run go on. -/

namespace FixedLayout

inductive TypeFault where
  | pointerToArray
  | nestedArrays
  | missingSemicolon
  | missingBracket
  | missingIdentifier
  | missingAngle
  | badLength
  | trailing
deriving Repr, DecidableEq

def TypeFault.message : TypeFault → String
  | pointerToArray => "pointers to arrays are not representable"
  | nestedArrays => "nested arrays are not representable"
  | missingSemicolon => "expected ';' in array type"
  | missingBracket => "expected ']' after array length"
  | missingIdentifier => "expected identifier"
  | missingAngle => "expected '>' closing generic arguments"
  | badLength => "invalid array length"
  | trailing => "trailing input"

inductive ConfigFault where
  | noNamespaces
  | zeroIndent
  | emptySource (position : Nat)
  | repeatedSource (source : String)
  | emptyExternal
deriving Repr, DecidableEq

def ConfigFault.reason : ConfigFault → String
  | noNamespaces => "No namespaces configured"
  | zeroIndent => "indent_width must be non-zero"
  | emptySource position => "Namespace " ++ toString position ++ " has an empty source prefix"
  | repeatedSource source => "Namespace " ++ source ++ " is configured twice"
  | emptyExternal => "External type with empty source or target"

def ConfigFault.message (fault : ConfigFault) : String :=
  "Invalid configuration: " ++ fault.reason

/-- Which sum or product leaves the address space. -/
inductive ExtentFault where
  /-- Elements of `size` bytes, `count` of them. -/
  | array (size count : Nat)
  /-- A field of `size` bytes at `offset`. -/
  | reach (offset size : Nat)
deriving Repr, DecidableEq

def ExtentFault.message : ExtentFault → String
  | array size count => toString size ++ " x " ++ toString count ++ " bytes overflows"
  | reach offset size =>
    "offset 0x" ++ Text.hexLower offset ++ " + 0x" ++ Text.hexLower size ++ " bytes overflows"

inductive ExportError where
  | invalidConfig (fault : ConfigFault)
  /-- A shape without a known form. -/
  | unsupportedShape (context shape : String)
  /-- A name that the library does not describe. -/
  | unknownType (name context : String)
  /-- A name claimed twice. -/
  | duplicateRegistration (module name : String)
  | invalidMetadata (context : String) (fault : ExtentFault)
  | invalidSignature (owner pattern : String)
  | invalidType (text : String) (fault : TypeFault)
deriving Repr, DecidableEq

def ExportError.message : ExportError → String
  | invalidConfig fault => "Configuration error: " ++ fault.message
  | unsupportedShape context shape => "Unsupported shape in " ++ context ++ ": " ++ shape
  | unknownType name context => "Unknown type " ++ name ++ " (referenced from " ++ context ++ ")"
  | duplicateRegistration module name =>
    "Duplicate registration of " ++ name ++ " in module " ++ module
  | invalidMetadata context fault => "Invalid metadata for " ++ context ++ ": " ++ fault.message
  | invalidSignature owner pattern =>
    "Invalid byte-pattern signature for " ++ owner ++ ": " ++ pattern
  | invalidType text fault =>
    "Invalid type reference " ++ Text.quoted text ++ ": " ++ fault.message

/-- What was degraded in the type known as `key`. -/
inductive Diagnostic where
  /-- The fields before `field` reach past its offset; the type ends there. -/
  | layoutOverrun (key field : String) (cursor offset : Nat)
  /-- The constants make no enumeration; its body is empty. -/
  | malformedEnum (key reason : String)
deriving Repr, DecidableEq

def Diagnostic.key : Diagnostic → String
  | layoutOverrun key .. => key
  | malformedEnum key _ => key

def Diagnostic.message : Diagnostic → String
  | layoutOverrun key field cursor offset =>
    "layout overrun in " ++ key ++ "." ++ field ++ ": cursor 0x" ++ Text.hexUpper cursor
      ++ " > offset 0x" ++ Text.hexUpper offset
  | malformedEnum key reason => "malformed enum " ++ key ++ ": " ++ reason

end FixedLayout
