/-!
# Powers

A power is that of the core library wherever it stands, also where a further library brings an instance of its own.
-/

attribute [instance (high + 1), default_instance (high + 1)] instPowNat
