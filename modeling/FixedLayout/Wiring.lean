import FixedLayout.Descriptor

/-! The module at the root of the output that resolves addresses: the types of patterns, and one
function for each way to find an address, with a line for every descriptor that is found so. -/

namespace FixedLayout

/-- What the module wires together, in this order. -/
structure Wiring where
  /-- Owners with a known virtual table. -/
  tables : List TypeExpr
  functions : List Descriptor
deriving Repr, DecidableEq

namespace Wiring

def typesCode : Code :=
  [.line "#[derive(Copy, Clone, Debug)]",
    .block "pub struct Signature"
      [.line "pub pattern: &'static str,",
        .line "pub bytes: &'static [u8],",
        .line "pub mask: &'static [bool],"],
    .blank,
    .block "impl Signature"
      [.block ("pub const fn new(pattern: &'static str, bytes: &'static [u8], "
          ++ "mask: &'static [bool]) -> Self")
        [.line "Self \x7b pattern, bytes, mask \x7d"]],
    .blank,
    .line "#[derive(Copy, Clone, Debug)]",
    .block "pub struct StaticAddressSignature"
      [.line "pub signature: Signature,",
        .line "pub offset: isize,",
        .line "pub is_pointer: bool,"],
    .blank,
    .block "impl StaticAddressSignature"
      [.block "pub const fn new(signature: Signature, offset: isize, is_pointer: bool) -> Self"
        [.line "Self \x7b",
          .indent,
          .line "signature,",
          .line "offset,",
          .line "is_pointer,",
          .dedent,
          .line "\x7d"]],
    .blank,
    .line "/// Scans for a byte pattern and returns the matching function address.",
    .line "pub type SignatureResolver = fn(&Signature) -> Option<usize>;",
    .line "/// Scans for a byte pattern and returns the static address it locates.",
    .line "pub type StaticAddressResolver = fn(&StaticAddressSignature) -> Option<usize>;"]

/-- A function that counts what its lines resolve. -/
def counting (header : String) (lines : Code) : Code :=
  [.block header ([.line "let mut resolved = 0;"] ++ lines ++ [.line "resolved"])]

/-- One resolution: where `found` has an address, `use` takes it. -/
def entry (found use : String) : Code.Step :=
  .block ("if let Some(" ++ found) [.line ("resolved += usize::from(" ++ use ++ ");")]

def tableEntry (owner : TypeExpr) : Code.Step :=
  entry ("address) = resolver(&" ++ owner.text ++ "::VTABLE_SIGNATURE)")
    (owner.text ++ "::set_vtable_address(address)")

/-- The resolution of a function that a pattern finds. -/
def patternEntry? (d : Descriptor) : Option Code.Step :=
  match d.binding with
  | .pattern _ =>
    some (entry ("address) = resolver(&" ++ d.type.text ++ "::SIGNATURE)")
      (d.type.text ++ ".set_address(address)"))
  | _ => none

/-- The resolution of a static address. -/
def addressEntry? (d : Descriptor) : Option Code.Step :=
  match d.binding with
  | .address _ =>
    some (entry ("address) = resolver(&" ++ d.type.text ++ "::STATIC_ADDRESS)")
      (d.type.text ++ ".set_address(address)"))
  | _ => none

/-- The resolution of a function in the virtual table of its owner. -/
def slotEntry? (d : Descriptor) : Option Code.Step :=
  match d.binding with
  | .slot _ =>
    some (entry ("vtable) = " ++ d.owner.text ++ "::vtable_address()")
      (d.type.text ++ ".resolve_from_vtable(vtable)"))
  | _ => none

def code (w : Wiring) : Code :=
  [.block "pub mod resolution"
    (typesCode
      ++ [.blank,
        .line "/// Resolve every virtual table address. Returns the number of tables set."]
      ++ counting "pub fn resolve_vtables(resolver: StaticAddressResolver) -> usize"
        (w.tables.map tableEntry)
      ++ [.blank]
      ++ counting "pub fn resolve_member_functions(resolver: SignatureResolver) -> usize"
        (w.functions.filterMap patternEntry?)
      ++ [.blank]
      ++ counting "pub fn resolve_static_addresses(resolver: StaticAddressResolver) -> usize"
        (w.functions.filterMap addressEntry?)
      ++ [.blank,
        .line "/// Resolve virtual functions from their owners' table addresses.",
        .line "///",
        .line "/// # Safety",
        .line "/// Every resolved table address must point to a readable virtual table."]
      ++ counting "pub unsafe fn resolve_virtual_functions() -> usize"
        (w.functions.filterMap slotEntry?)
      ++ [.blank,
        .line "/// # Safety",
        .line "/// See [`resolve_virtual_functions`].",
        .block ("pub unsafe fn resolve_all(signatures: SignatureResolver, "
            ++ "static_addresses: StaticAddressResolver) -> usize")
          [.line "resolve_vtables(static_addresses)",
            .indent,
            .line "+ resolve_member_functions(signatures)",
            .line "+ resolve_static_addresses(static_addresses)",
            .line "+ resolve_virtual_functions()",
            .dedent]])]

end Wiring

end FixedLayout
