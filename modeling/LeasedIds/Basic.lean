-- Powers and sums of natural numbers are core's, also where other instances are in scope.
attribute [instance (1100), default_instance (10100)] instPowNat
attribute [instance (1100)] Zero.ofOfNat0
