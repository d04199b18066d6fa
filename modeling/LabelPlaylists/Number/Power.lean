/-!
Powers of numbers. A power is the core library's in every module, whatever else the module sees.
-/

attribute [instance (high)] instPowNat

attribute [default_instance (high + 1)] instPowNat
