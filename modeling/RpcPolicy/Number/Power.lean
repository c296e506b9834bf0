/-! Powers of natural numbers. -/

namespace RpcPolicy

/-- A power of a natural number is the core library's, also where powers of a monoid are known. -/
@[default_instance 10000]
instance (priority := high) natPower : Pow Nat Nat := instPowNat

end RpcPolicy
